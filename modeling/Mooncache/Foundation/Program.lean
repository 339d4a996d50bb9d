import Mathlib.Logic.Basic
import Mathlib.Data.List.Basic

/-! Programs as trees of calls, the events of an execution, and rules for what every
call and every result of a program meets, whatever the replies. -/
namespace Mooncache
variable {E : Type} {R : E → Type} {α β : Type}

/-- A program that makes calls and goes on with their replies. -/
inductive Program (E : Type) (R : E → Type) (α : Type) where
  | done (value : α)
  | call (request : E) (next : R request → Program E R α)

/-- A call with the reply it got. -/
structure Event (E : Type) (R : E → Type) where
  request : E
  reply : R request

namespace Program

protected def bind : Program E R α → (α → Program E R β) → Program E R β
  | done value, f => f value
  | call request next, f => call request fun reply => (next reply).bind f

instance : Monad (Program E R) where
  pure := done
  bind := Program.bind

/-- The last part of a sequence may be taken with the middle one. -/
theorem bind_assoc {γ : Type} (p : Program E R α) (f : α → Program E R β) (g : β → Program E R γ) :
    (p.bind f).bind g = p.bind fun value => (f value).bind g := by
  induction p with
  | done value => rfl
  | call request next ih => exact congrArg (call request) (funext ih)

/-- Make one call and return its reply. -/
def perform (request : E) : Program E R (R request) := call request done

/-- `Trace p events q`: the events, in order, take `p` to `q`. -/
inductive Trace : Program E R α → List (Event E R) → Program E R α → Prop
  | nil (p : Program E R α) : Trace p [] p
  | cons {request : E} {next : R request → Program E R α} {reply : R request} {events : List (Event E R)}
      {q : Program E R α} : Trace (next reply) events q → Trace (call request next) (⟨request, reply⟩ :: events) q

theorem Trace.snoc {p : Program E R α} {events : List (Event E R)} {request : E}
    {next : R request → Program E R α} (h : Trace p events (call request next)) (reply : R request) :
    Trace p (events ++ [⟨request, reply⟩]) (next reply) := by
  generalize hq : call request next = q at h
  induction h with
  | nil p =>
    subst hq
    exact .cons (.nil _)
  | cons rest ih => exact .cons (ih hq)

/-- A sequence does what its first half does and then what its second half does. -/
theorem Trace.bind {p : Program E R α} {f : α → Program E R β} {value : α} {events more : List (Event E R)}
    {q : Program E R β} (first : Trace p events (done value)) (rest : Trace (f value) more q) :
    Trace (p >>= f) (events ++ more) q := by
  generalize hq : done value = ended at first
  induction first with
  | nil p =>
    subst hq
    exact rest
  | cons _ ih => exact .cons (ih hq)

/-- After the events of `past`, every call meets `pre` and every result `post`. -/
def Meets (pre : List (Event E R) → E → Prop) (post : List (Event E R) → α → Prop) :
    List (Event E R) → Program E R α → Prop
  | past, done value => post past value
  | past, call request next => pre past request ∧ ∀ reply, Meets pre post (past ++ [⟨request, reply⟩]) (next reply)

section
variable {pre pre' : List (Event E R) → E → Prop} {post post' : List (Event E R) → α → Prop}
  {past events : List (Event E R)} {p q : Program E R α}

theorem Meets.mono (h : Meets pre post past p) (calls : ∀ past request, pre past request → pre' past request)
    (results : ∀ past value, post past value → post' past value) : Meets pre' post' past p := by
  induction p generalizing past with
  | done value => exact results _ _ h
  | call request next ih => exact ⟨calls _ _ h.1, fun reply => ih reply (h.2 reply)⟩

/-- A sequence meets what its two halves meet, through a condition between them. -/
theorem Meets.bind {mid : List (Event E R) → α → Prop} {after : List (Event E R) → β → Prop}
    {f : α → Program E R β} (first : Meets pre mid past p)
    (rest : ∀ past value, mid past value → Meets pre after past (f value)) :
    Meets pre after past (p >>= f) := by
  induction p generalizing past with
  | done value => exact rest _ _ first
  | call request next ih => exact ⟨first.1, fun reply => ih reply (first.2 reply)⟩

/-- What a program meets is met by what is left of it. -/
theorem Meets.trace (h : Meets pre post past p) (taken : Trace p events q) :
    Meets pre post (past ++ events) q := by
  induction taken generalizing past with
  | nil p => simpa using h
  | @cons request next reply events q _ ih =>
    have rest := ih (h.2 reply)
    rwa [List.append_assoc, List.singleton_append] at rest

/-- Every event of an execution met the condition on calls when its turn came. -/
theorem Meets.event (h : Meets pre post past p) (taken : Trace p events q) {before after : List (Event E R)}
    {event : Event E R} (split : events = before ++ event :: after) : pre (past ++ before) event.request := by
  induction taken generalizing past before with
  | nil p => simp at split
  | @cons request next reply events q _ ih =>
    cases before with
    | nil =>
      obtain ⟨rfl, rfl⟩ := List.cons.inj split
      simpa using h.1
    | cons first rest =>
      obtain ⟨rfl, same⟩ := List.cons.inj split
      have met := ih (h.2 reply) same
      rwa [List.append_assoc, List.singleton_append] at met

/-- Conditions that do not look at the past hold after any. -/
theorem Meets.anywhere {kind : E → Prop} {good : α → Prop}
    (h : Meets (fun _ request => kind request) (fun _ value => good value) past p) (other : List (Event E R)) :
    Meets (fun _ request => kind request) (fun _ value => good value) other p := by
  induction p generalizing past other with
  | done value => exact h
  | call request next ih => exact ⟨h.1, fun reply => ih reply (h.2 reply) _⟩

/-- What a program meets from the start it meets after any past, of which it knows nothing. -/
theorem Meets.shift {new : List (Event E R)} (h : Meets pre post new p) (past : List (Event E R)) :
    Meets (fun later request => ∃ new, later = past ++ new ∧ pre new request)
      (fun later value => ∃ new, later = past ++ new ∧ post new value) (past ++ new) p := by
  induction p generalizing new with
  | done value => exact ⟨new, rfl, h⟩
  | call request next ih =>
    refine ⟨⟨new, rfl, h.1⟩, fun reply => ?_⟩
    rw [List.append_assoc]
    exact ih reply (h.2 reply)

theorem Meets.and (h : Meets pre post past p) (h' : Meets pre' post' past p) :
    Meets (fun past request => pre past request ∧ pre' past request)
      (fun past value => post past value ∧ post' past value) past p := by
  induction p generalizing past with
  | done value => exact ⟨h, h'⟩
  | call request next ih => exact ⟨⟨h.1, h'.1⟩, fun reply => ih reply (h.2 reply) (h'.2 reply)⟩

/-- The past of every call and every result begins with what the program found. -/
theorem Meets.after (h : Meets pre post past p) : Meets (fun later request => past <+: later ∧ pre later request)
    (fun later value => past <+: later ∧ post later value) past p := by
  induction p generalizing past with
  | done value => exact ⟨List.prefix_refl past, h⟩
  | call request next ih =>
    refine ⟨⟨List.prefix_refl past, h.1⟩, fun reply => (ih reply (h.2 reply)).mono ?_ ?_⟩
    · exact fun later request met => ⟨(List.prefix_append _ _).trans met.1, met.2⟩
    · exact fun later value met => ⟨(List.prefix_append _ _).trans met.1, met.2⟩

theorem Meets.extends (h : Meets pre post past p) :
    Meets pre (fun later value => past <+: later ∧ post later value) past p :=
  h.after.mono (fun _ _ => And.right) fun _ _ => id

/-- The result of a program is determined by the replies to calls of one kind, if its other calls have one reply. -/
theorem Meets.determined {kind : E → Bool}
    (h : Meets (fun _ request => kind request = false → Subsingleton (R request)) post past p)
    {events events' : List (Event E R)} {value value' : α} (taken : Trace p events (done value))
    (taken' : Trace p events' (done value'))
    (same : events.filter (fun event => kind event.request) = events'.filter (fun event => kind event.request)) :
    value = value' := by
  induction p generalizing past events events' with
  | done result =>
    cases taken
    cases taken'
    rfl
  | call request next ih =>
    cases taken with
    | @cons _ _ reply _ _ rest =>
    cases taken' with
    | @cons _ _ reply' _ _ rest' =>
    cases relevant : kind request with
    | true =>
      simp only [List.filter_cons, relevant, ↓reduceIte, List.cons.injEq, Event.mk.injEq] at same
      obtain ⟨⟨_, replies⟩, later⟩ := same
      cases replies
      exact ih reply (h.2 reply) rest rest' later
    | false =>
      simp only [List.filter_cons, relevant, Bool.false_eq_true, ↓reduceIte] at same
      have _ := h.1 relevant
      cases Subsingleton.elim reply reply'
      exact ih reply (h.2 reply) rest rest' same

/-- The second events are the first and further ones whose calls are of this kind. -/
def Adds (kind : E → Prop) (past later : List (Event E R)) : Prop :=
  ∃ new, later = past ++ new ∧ ∀ event ∈ new, kind event.request

theorem Adds.refl (kind : E → Prop) (past : List (Event E R)) : Adds kind past past := ⟨[], by simp, by simp⟩

theorem Adds.trans {kind : E → Prop} {past middle later : List (Event E R)} (first : Adds kind past middle)
    (last : Adds kind middle later) : Adds kind past later := by
  obtain ⟨new, rfl, hn⟩ := first
  obtain ⟨more, rfl, hm⟩ := last
  exact ⟨new ++ more, by rw [List.append_assoc], fun event h => (List.mem_append.mp h).elim (hn event) (hm event)⟩

theorem Adds.snoc {kind : E → Prop} (past : List (Event E R)) {event : Event E R} (h : kind event.request) :
    Adds kind past (past ++ [event]) := ⟨[event], rfl, by simpa using h⟩

theorem Adds.mono {kind kind' : E → Prop} {past later : List (Event E R)} (h : Adds kind past later)
    (kinds : ∀ request, kind request → kind' request) : Adds kind' past later := by
  obtain ⟨new, rfl, hn⟩ := h
  exact ⟨new, rfl, fun event member => kinds _ (hn event member)⟩

theorem Adds.mem {kind : E → Prop} {past later : List (Event E R)} (h : Adds kind past later) {event : Event E R}
    (member : event ∈ past) : event ∈ later := by
  obtain ⟨new, rfl, _⟩ := h
  exact List.mem_append_left _ member

/-- An event of another kind is an old one. -/
theorem Adds.of_mem {kind : E → Prop} {past later : List (Event E R)} (h : Adds kind past later)
    {event : Event E R} (member : event ∈ later) (other : ¬ kind event.request) : event ∈ past := by
  obtain ⟨new, rfl, hn⟩ := h
  exact (List.mem_append.mp member).resolve_right fun late => other (hn event late)

/-- A program that makes calls of one kind only adds events of that kind. -/
theorem Meets.adds {kind : E → Prop} (h : Meets (fun _ request => kind request) post past p) :
    Meets (fun _ request => kind request) (fun later value => Adds kind past later ∧ post later value) past p := by
  induction p generalizing past with
  | done value => exact ⟨.refl kind past, h⟩
  | call request next ih =>
    refine ⟨h.1, fun reply => (ih reply (h.2 reply)).mono (fun _ _ made => made) fun later value met => ?_⟩
    exact ⟨(show Adds kind past (past ++ [⟨request, reply⟩]) from .snoc past h.1).trans met.1, met.2⟩

end

section
variable {W : Type}

/-- `Finishes serve w p w' value`: with each call served in turn from `w`, the program
returns `value` and leaves `w'`. -/
inductive Finishes (serve : W → (request : E) → R request → W → Prop) : W → Program E R α → W → α → Prop
  | done (w : W) (value : α) : Finishes serve w (done value) w value
  | call {w middle w' : W} {request : E} {next : R request → Program E R α} {reply : R request} {value : α} :
      serve w request reply middle → Finishes serve middle (next reply) w' value →
      Finishes serve w (call request next) w' value

variable {serve : W → (request : E) → R request → W → Prop} {w w' : W}

theorem finishes_done {value result : α} :
    Finishes serve w (done value : Program E R α) w' result ↔ w' = w ∧ result = value := by
  constructor
  · rintro ⟨⟩
    exact ⟨rfl, rfl⟩
  · rintro ⟨rfl, rfl⟩
    exact .done _ _

theorem finishes_call {request : E} {next : R request → Program E R α} {value : α} :
    Finishes serve w (call request next) w' value ↔
      ∃ reply middle, serve w request reply middle ∧ Finishes serve middle (next reply) w' value := by
  constructor
  · rintro (_ | ⟨served, rest⟩)
    exact ⟨_, _, served, rest⟩
  · rintro ⟨_, _, served, rest⟩
    exact .call served rest

/-- Run a program alone against a world that computes its replies. -/
def exec (serve : W → (request : E) → R request × W) : W → Program E R α → α × W
  | w, done value => (value, w)
  | w, call request next => exec serve (serve w request).2 (next (serve w request).1)

@[simp] theorem exec_pure (serve : W → (request : E) → R request × W) (w : W) (value : α) :
    exec serve w (pure value : Program E R α) = (value, w) := rfl

@[simp] theorem exec_perform (serve : W → (request : E) → R request × W) (w : W) (request : E)
    (f : R request → Program E R α) :
    exec serve w (perform request >>= f) = exec serve (serve w request).2 (f (serve w request).1) := rfl

end
end Program
end Mooncache
