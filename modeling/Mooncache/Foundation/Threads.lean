import Mooncache.Foundation.Program
import Mooncache.Foundation.Runs
import Mathlib.Data.Fintype.Defs
import Mathlib.Logic.Function.Basic

/-! Programs that run side by side over one shared world. A call takes effect when the
world serves it; between calls the world may also act on its own. -/
namespace Mooncache
variable {I W A E : Type} {R : E → Type} {α : Type}

/-- How a world answers calls and what it does by itself. -/
structure Server (W A E : Type) (R : E → Type) where
  serve : W → (request : E) → R request → W → Prop
  act : W → A → W → Prop

/-- The world, what is left of every thread, and the events so far with their threads. -/
structure Pool (I W E : Type) (R : E → Type) (α : Type) where
  world : W
  threads : I → Program E R α
  history : List (I × Event E R)

namespace Pool

/-- Every thread before its first call. -/
def initial (world : W) (programs : I → Program E R α) : Pool I W E R α := ⟨world, programs, []⟩

inductive Label (I A E : Type) (R : E → Type) where
  | call (i : I) (event : Event E R)
  | act (action : A)

/-- The threads in the order in which they did a thing. -/
def order (did : I → Event E R → Bool) (history : List (I × Event E R)) : List I :=
  (history.filter fun entry => did entry.1 entry.2).map Prod.fst

theorem order_snoc (did : I → Event E R → Bool) (history : List (I × Event E R)) (i : I) (event : Event E R) :
    order did (history ++ [(i, event)]) = order did history ++ if did i event then [i] else [] := by
  by_cases h : did i event = true <;> simp [order, h]

/-- The thread that did a thing last. -/
def latest (did : I → Event E R → Bool) (history : List (I × Event E R)) : Option I := (order did history).getLast?

theorem latest_snoc (did : I → Event E R → Bool) (history : List (I × Event E R)) (i : I) (event : Event E R) :
    latest did (history ++ [(i, event)]) = if did i event then some i else latest did history := by
  rw [latest, order_snoc]
  split <;> simp [latest]

section
variable {did : I → Event E R → Bool} {history : List (I × Event E R)} {i : I} {event : Event E R}

theorem order_snoc_of_not (h : did i event = false) : order did (history ++ [(i, event)]) = order did history := by
  simp [order_snoc, h]

theorem order_snoc_of_did (h : did i event = true) : order did (history ++ [(i, event)]) = order did history ++ [i] := by
  simp [order_snoc, h]

theorem latest_snoc_of_not (h : did i event = false) : latest did (history ++ [(i, event)]) = latest did history := by
  simp [latest_snoc, h]

end

theorem mem_of_latest {did : I → Event E R → Bool} {history : List (I × Event E R)} {i : I}
    (h : latest did history = some i) : i ∈ order did history := List.mem_of_getLast? h

theorem exists_latest {did : I → Event E R → Bool} {history : List (I × Event E R)} {i : I}
    (h : i ∈ order did history) : ∃ j, latest did history = some j := by
  rw [latest, ← Option.isSome_iff_exists, List.getLast?_isSome]
  exact List.ne_nil_of_mem h

theorem last_after {l : List I} {i j : I} (member : i ∈ l) (last : l.getLast? = some j) : i = j ∨ [i, j].Sublist l := by
  obtain ⟨earlier, rfl⟩ := List.getLast?_eq_some_iff.mp last
  rcases List.mem_append.mp member with before | same
  · exact .inr ((List.singleton_sublist.mpr before).append_right [j])
  · exact .inl (List.mem_singleton.mp same)

/-- A thread that comes last comes after the others, and before none. -/
theorem after_snoc {l : List I} {i j k : I} (h : [i, j].Sublist (l ++ [k])) (hne : j ≠ k) : [i, j].Sublist l := by
  obtain ⟨first, second, split, before, last⟩ := List.sublist_append_iff.mp h
  rcases List.sublist_singleton.mp last with rfl | rfl
  · rw [List.append_nil] at split
    exact split ▸ before
  · have same := (List.append_inj' (show [i] ++ [j] = first ++ [k] from split) rfl).2
    exact absurd (List.singleton_inj.mp same) hne

/-- Two threads of a list are one, or one comes after the other. -/
theorem either_order {l : List I} {i j : I} (first : i ∈ l) (second : j ∈ l) :
    i = j ∨ [i, j].Sublist l ∨ [j, i].Sublist l := by
  obtain ⟨before, after, rfl⟩ := List.append_of_mem first
  rcases List.mem_append.mp second with earlier | later
  · have last : [i].Sublist (i :: after) := List.singleton_sublist.mpr List.mem_cons_self
    exact .inr (.inr ((List.singleton_sublist.mpr earlier).append last))
  · rcases List.mem_cons.mp later with rfl | behind
    · exact .inl rfl
    · have rest : [i, j].Sublist (i :: after) := (List.singleton_sublist.mpr behind).cons_cons i
      exact .inr (.inl (rest.trans (List.sublist_append_right before _)))

/-- No thread comes after one that is there for the first time. -/
theorem none_after_last {l : List I} {i j : I} (fresh : i ∉ l) : ¬ [i, j].Sublist (l ++ [i]) := by
  intro after
  rcases eq_or_ne j i with rfl | hne
  · obtain ⟨first, second, split, before, last⟩ := List.sublist_append_iff.mp after
    rcases List.sublist_singleton.mp last with rfl | rfl
    · rw [List.append_nil] at split
      exact fresh (before.subset (split ▸ List.mem_cons_self))
    · obtain ⟨same, _⟩ := List.append_inj' (show [j] ++ [j] = first ++ [j] from split) rfl
      exact fresh (before.subset (same ▸ List.mem_cons_self))
  · exact fresh ((after_snoc after hne).subset List.mem_cons_self)

/-- No thread that did the first thing after this one has done the second already, but one of the same value. -/
def NotOvertaken {V : Type} (first second : I → Event E R → Bool) (value : I → V) (history : List (I × Event E R))
    (i : I) : Prop :=
  ∀ j, [i, j].Sublist (order first history) → j ∈ order second history → value j = value i

instance {V : Type} [Fintype I] [DecidableEq I] [DecidableEq V] (first second : I → Event E R → Bool) (value : I → V)
    (history : List (I × Event E R)) (i : I) : Decidable (NotOvertaken first second value history i) :=
  inferInstanceAs (Decidable (∀ _, _ → _ → _))

/-- Other threads do the first thing before the second, and the second without another value. -/
theorem NotOvertaken.snoc {V : Type} {first second : I → Event E R → Bool} {value : I → V}
    {history : List (I × Event E R)} {i j : I} {event : Event E R} (h : NotOvertaken first second value history i)
    (fresh : first j event = true → j ∉ order second history)
    (equal : second j event = true → value j = value i) :
    NotOvertaken first second value (history ++ [(j, event)]) i := by
  intro k after done
  rw [order_snoc, List.mem_append] at done
  rcases done with earlier | now
  · refine h k ?_ earlier
    rw [order_snoc] at after
    split at after
    · rename_i starts
      exact after_snoc after fun same => fresh starts (same ▸ earlier)
    · rwa [List.append_nil] at after
  · split at now
    · rename_i finishes
      exact List.mem_singleton.mp now ▸ equal finishes
    · exact absurd now List.not_mem_nil

/-- The thread that did the second thing last was not overtaken. -/
def Ordered {V : Type} (first second : I → Event E R → Bool) (value : I → V) (history : List (I × Event E R)) : Prop :=
  ∀ i, latest second history = some i → NotOvertaken first second value history i

section
variable {V : Type} {first second : I → Event E R → Bool} {value : I → V} {history : List (I × Event E R)} {i j : I}

theorem Ordered.snoc (h : Ordered first second value history) {event : Event E R}
    (fresh : first j event = true → j ∉ order second history)
    (own : second j event = true → NotOvertaken first second value history j) :
    Ordered first second value (history ++ [(j, event)]) := by
  intro i last
  rw [latest_snoc] at last
  split at last
  · rename_i finishes
    cases last
    exact (own finishes).snoc fresh fun _ => rfl
  · rename_i other
    exact (h i last).snoc fresh fun finishes => absurd finishes other

/-- The last thread to do the first thing, once it has done the second, has the value of the last
to do the second. -/
theorem Ordered.agree (h : Ordered first second value history) (first_last : latest first history = some i)
    (last : latest second history = some j) (member : j ∈ order first history) (done : i ∈ order second history) :
    value i = value j := by
  rcases last_after member first_last with rfl | after
  · rfl
  · exact h j last i after done

end

variable [DecidableEq I]

/-- The events of one thread. -/
def own (history : List (I × Event E R)) (i : I) : List (Event E R) :=
  history.filterMap fun entry => if entry.1 = i then some entry.2 else none

inductive Step (server : Server W A E R) : Pool I W E R α → Label I A E R → Pool I W E R α → Prop
  | call {s : Pool I W E R α} {i : I} {request : E} {next : R request → Program E R α} {reply : R request}
      {world : W} : s.threads i = .call request next → server.serve s.world request reply world →
      Step server s (.call i ⟨request, reply⟩)
        ⟨world, Function.update s.threads i (next reply), s.history ++ [(i, ⟨request, reply⟩)]⟩
  | act {s : Pool I W E R α} {action : A} {world : W} : server.act s.world action world →
      Step server s (.act action) { s with world := world }

@[simp] theorem own_nil (i : I) : own ([] : List (I × Event E R)) i = [] := rfl

@[simp] theorem own_snoc_self (history : List (I × Event E R)) (i : I) (event : Event E R) :
    own (history ++ [(i, event)]) i = own history i ++ [event] := by
  simp [own]

@[simp] theorem own_snoc_of_ne (history : List (I × Event E R)) {i j : I} (h : i ≠ j) (event : Event E R) :
    own (history ++ [(j, event)]) i = own history i := by
  simp [own, h.symm]

theorem own_cons_self (i : I) (event : Event E R) (rest : List (I × Event E R)) :
    own ((i, event) :: rest) i = event :: own rest i := by
  simp [own]

theorem own_append (history more : List (I × Event E R)) (i : I) :
    own (history ++ more) i = own history i ++ own more i := List.filterMap_append

theorem mem_own {history : List (I × Event E R)} {i : I} {event : Event E R} :
    event ∈ own history i ↔ (i, event) ∈ history := by
  simp only [own, List.mem_filterMap, Option.ite_none_right_eq_some, Option.some.injEq]
  constructor
  · rintro ⟨⟨j, found⟩, member, rfl, rfl⟩
    exact member
  · exact fun member => ⟨(i, event), member, rfl, rfl⟩

theorem mem_order {did : I → Event E R → Bool} {history : List (I × Event E R)} {i : I} :
    i ∈ order did history ↔ ∃ event ∈ own history i, did i event = true := by
  simp only [order, List.mem_map, List.mem_filter, mem_own]
  constructor
  · rintro ⟨⟨j, event⟩, ⟨member, done⟩, rfl⟩
    exact ⟨event, member, done⟩
  · rintro ⟨event, member, done⟩
    exact ⟨(i, event), ⟨member, done⟩, rfl⟩

section
variable {server : Server W A E R} {world : W} {programs : I → Program E R α}
  {trace : List (Label I A E R)} {s s' : Pool I W E R α}

/-- The history holds the calls of the trace. -/
theorem run_history (run : Run (Step server) (initial world programs) trace s) (i : I) (event : Event E R) :
    (i, event) ∈ s.history ↔ .call i event ∈ trace := by
  induction run with
  | start => simp [initial]
  | snoc _ last ih =>
    cases last with
    | call _ _ => simp [ih]
    | act _ => simp [ih]

/-- From any state the history only grows, by the calls of the labels. -/
theorem run_grows {middle : Pool I W E R α} (run : Run (Step server) middle trace s) :
    ∃ new, s.history = middle.history ++ new ∧ ∀ i event, (i, event) ∈ new ↔ .call i event ∈ trace := by
  induction run with
  | start => exact ⟨[], by simp, by simp⟩
  | snoc _ last ih =>
    obtain ⟨new, grown, calls⟩ := ih
    cases last with
    | @call j request next reply _ _ _ =>
      exact ⟨new ++ [(j, ⟨request, reply⟩)], by simp [grown], by simp [calls]⟩
    | act _ => exact ⟨new, grown, by simp [calls]⟩

/-- The events of a thread lead from its program to what is left of it. -/
theorem run_trace (run : Run (Step server) (initial world programs) trace s) (i : I) :
    (programs i).Trace (own s.history i) (s.threads i) := by
  induction run with
  | start => exact .nil _
  | snoc _ last ih =>
    cases last with
    | @call j request next reply _ pending _ =>
      rcases eq_or_ne i j with rfl | hne
      · simp only [own_snoc_self, Function.update_self]
        rw [pending] at ih
        exact ih.snoc reply
      · simp only [own_snoc_of_ne _ hne, Function.update_of_ne hne]
        exact ih
    | act _ => exact ih

/-- What a program meets is met by its thread at every point of a run. -/
theorem run_meets {pre : List (Event E R) → E → Prop} {post : List (Event E R) → α → Prop} {i : I}
    (meets : (programs i).Meets pre post []) (run : Run (Step server) (initial world programs) trace s) :
    (s.threads i).Meets pre post (own s.history i) := by
  simpa using meets.trace (run_trace run i)

/-- Every call of a thread met the condition on calls when it was made. -/
theorem run_called {pre : List (Event E R) → E → Prop} {post : List (Event E R) → α → Prop} {i : I}
    (meets : (programs i).Meets pre post []) (run : Run (Step server) (initial world programs) trace s)
    {before after : List (Event E R)} {event : Event E R} (split : own s.history i = before ++ event :: after) :
    pre before event.request := by
  simpa using meets.event (run_trace run i) split

end
end Pool
end Mooncache
