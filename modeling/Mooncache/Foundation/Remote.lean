import Mooncache.Foundation.Threads

/-! Calls that are served elsewhere, step by step, by a handler whose client waits for its answer
or has given up. Where every handler takes effect at most once, they look like calls that are
served at once. -/
namespace Mooncache
variable {I V W A A' E H B α : Type} {R : E → Type} {T : H → Type}

/-- How calls are served: some where they are made, the others by a handler that makes calls of its own. A client that
hears no answer takes one of the replies for a lost one. -/
structure RemoteServer (V A E : Type) (R : E → Type) (H : Type) (T : H → Type) (B : Type) where
  direct : Server V A E R
  remote : E → Prop
  handles : E → Program H T B → Prop
  serve : V → (request : H) → T request → V → Prop
  hears : (call : E) → B → R call → Prop
  lost : (call : E) → R call → Prop
  others : Program H T B → Prop

inductive RemoteThread (E : Type) (R : E → Type) (H : Type) (T : H → Type) (B α : Type) where
  | ready (rest : Program E R α)
  | sent (call : E) (next : R call → Program E R α)
  | handled (call : E) (next : R call → Program E R α) (handler : Program H T B)

/-- What is left of the thread, as far as it knows. -/
def RemoteThread.rest : RemoteThread E R H T B α → Program E R α
  | ready rest => rest
  | sent call next | handled call next _ => .call call next

/-- The world, the threads, the handlers nobody waits for, and the replies so far with their threads. -/
structure RemotePool (I V E : Type) (R : E → Type) (H : Type) (T : H → Type) (B α : Type) where
  world : V
  threads : I → RemoteThread E R H T B α
  late : List (Program H T B)
  history : List (I × Event E R)

namespace RemotePool

def initial (world : V) (programs : I → Program E R α) : RemotePool I V E R H T B α :=
  ⟨world, fun i => .ready (programs i), [], []⟩

inductive Label (I A E : Type) (R : E → Type) where
  | replied (i : I) (event : Event E R)
  | moved (i : I)
  | elsewhere
  | act (action : A)

variable [DecidableEq I]

def become (s : RemotePool I V E R H T B α) (i : I) (thread : RemoteThread E R H T B α) :
    RemotePool I V E R H T B α :=
  { s with threads := Function.update s.threads i thread }

def reply (s : RemotePool I V E R H T B α) (i : I) (event : Event E R) (rest : Program E R α) :
    RemotePool I V E R H T B α :=
  { s with threads := Function.update s.threads i (.ready rest), history := s.history ++ [(i, event)] }

/-- A request may be lost, or come late; its handler may go on when its client has given up; other clients have
handlers too. -/
inductive Step (server : RemoteServer V A E R H T B) (s : RemotePool I V E R H T B α) :
    Label I A E R → RemotePool I V E R H T B α → Prop
  | direct {i : I} {call : E} {next : R call → Program E R α} {reply : R call} {world : V} :
      s.threads i = .ready (.call call next) → ¬ server.remote call → server.direct.serve s.world call reply world →
      Step server s (.replied i ⟨call, reply⟩) ({ s with world := world }.reply i ⟨call, reply⟩ (next reply))
  | send {i : I} {call : E} {next : R call → Program E R α} : s.threads i = .ready (.call call next) →
      server.remote call → Step server s (.moved i) (s.become i (.sent call next))
  | arrive {i : I} {call : E} {next : R call → Program E R α} {handler : Program H T B} :
      s.threads i = .sent call next → server.handles call handler →
      Step server s (.moved i) (s.become i (.handled call next handler))
  | handle {i : I} {call : E} {next : R call → Program E R α} {request : H} {rest : T request → Program H T B}
      {told : T request} {world : V} : s.threads i = .handled call next (.call request rest) →
      server.serve s.world request told world →
      Step server s (.moved i) ({ s with world := world }.become i (.handled call next (rest told)))
  | hear {i : I} {call : E} {next : R call → Program E R α} {answer : B} {reply : R call} :
      s.threads i = .handled call next (.done answer) → server.hears call answer reply →
      Step server s (.replied i ⟨call, reply⟩) (s.reply i ⟨call, reply⟩ (next reply))
  | lose {i : I} {call : E} {next : R call → Program E R α} {reply : R call} : s.threads i = .sent call next →
      server.lost call reply → Step server s (.replied i ⟨call, reply⟩) (s.reply i ⟨call, reply⟩ (next reply))
  | delay {i : I} {call : E} {next : R call → Program E R α} {reply : R call} {handler : Program H T B} :
      s.threads i = .sent call next → server.lost call reply → server.handles call handler →
      Step server s (.replied i ⟨call, reply⟩)
        ({ s with late := s.late ++ [handler] }.reply i ⟨call, reply⟩ (next reply))
  | leave {i : I} {call : E} {next : R call → Program E R α} {reply : R call} {handler : Program H T B} :
      s.threads i = .handled call next handler → server.lost call reply →
      Step server s (.replied i ⟨call, reply⟩)
        ({ s with late := s.late ++ [handler] }.reply i ⟨call, reply⟩ (next reply))
  | late {k : Nat} {request : H} {rest : T request → Program H T B} {told : T request} {world : V} :
      s.late[k]? = some (.call request rest) → server.serve s.world request told world →
      Step server s .elsewhere { s with world := world, late := s.late.set k (rest told) }
  | other {handler : Program H T B} : server.others handler →
      Step server s .elsewhere { s with late := s.late ++ [handler] }
  | act {action : A} {world : V} : server.direct.act s.world action world →
      Step server s (.act action) { s with world := world }

end RemotePool

namespace RemoteServer

/-- After its effect, which led from one state to another, a handler has no further one, and answers as if the call
had been served there. -/
def Effected (remote : RemoteServer V A E R H T B) (server : Server W A' E R) (view : V → W) (call : E) (w w' : W) :
    Program H T B → Prop
  | .done answer => ∀ reply, remote.hears call answer reply → server.serve w call reply w'
  | .call request rest => ∀ v told v', remote.serve v request told v' →
    view v' = view v ∧ Effected remote server view call w w' (rest told)

/-- A handler that has had no effect yet. -/
def Pending (remote : RemoteServer V A E R H T B) (server : Server W A' E R) (view : V → W) (call : E) :
    Program H T B → Prop
  | .done answer => ∀ reply w, remote.hears call answer reply → server.serve w call reply w
  | .call request rest => ∀ v told v', remote.serve v request told v' →
    view v' = view v ∧ Pending remote server view call (rest told) ∨
    (∀ reply, remote.lost call reply → server.serve (view v) call reply (view v')) ∧
      Effected remote server view call (view v) (view v') (rest told)

/-- What makes a remote server look like one that serves each of these calls at once. -/
structure Implements (remote : RemoteServer V A E R H T B) (server : Server W A' E R) (view : V → W)
    (made : E → Prop) : Prop where
  direct : ∀ {v call reply v'}, ¬ remote.remote call → remote.direct.serve v call reply v' →
    server.serve (view v) call reply (view v')
  acts : ∀ {v action v'}, remote.direct.act v action v' → view v' = view v ∨ ∃ a, server.act (view v) a (view v')
  elsewhere : ∀ {v request told v'}, remote.serve v request told v' →
    view v' = view v ∨ ∃ a, server.act (view v) a (view v')
  lost : ∀ {call reply}, remote.lost call reply → ∀ w, server.serve w call reply w
  gives : ∀ {call}, remote.remote call → ∃ reply, remote.lost call reply
  pending : ∀ {call handler}, made call → remote.remote call → remote.handles call handler →
    remote.Pending server view call handler

end RemoteServer

/-- A thread of a run in which every call is served at once: as far as the remote thread, or one reply further. -/
inductive RemoteThread.Tracked : RemoteThread E R H T B α → Program E R α → List (Event E R) → Prop
  | same (thread : RemoteThread E R H T B α) : Tracked thread thread.rest []
  | ahead (call : E) (next : R call → Program E R α) (handler : Program H T B) (reply : R call) :
      Tracked (.handled call next handler) (next reply) [⟨call, reply⟩]

namespace RemotePool
open RemoteServer
variable {remote : RemoteServer V A E R H T B} {server : Server W A' E R} {view : V → W} {made : E → Prop}

/-- What a handler that waits for its answer may still do. A mark says which effect it has had. -/
private def Marked (remote : RemoteServer V A E R H T B) (server : Server W A' E R) (view : V → W) :
    Option (W × W) → RemoteThread E R H T B α → Prop
  | none, .ready _ => True
  | none, .sent call _ => remote.remote call
  | none, .handled call _ handler => remote.remote call ∧ remote.Pending server view call handler
  | some (w, w'), .handled call _ handler => remote.remote call ∧
    (∀ reply, remote.lost call reply → server.serve w call reply w') ∧ remote.Effected server view call w w' handler
  | some _, _ => False

/-- A marked thread may have got any reply with which its effect is one of the call. -/
private def Ahead (server : Server W A' E R) : Option (W × W) → RemoteThread E R H T B α → Program E R α →
    List (Event E R) → Prop
  | none, thread, rest, more => rest = thread.rest ∧ more = []
  | some (w, w'), .handled call next _, rest, more =>
    ∃ reply, server.serve w call reply w' ∧ rest = next reply ∧ more = [⟨call, reply⟩]
  | some _, _, _, _ => False

variable [DecidableEq I]

/-- However the marked threads got their replies, a run with every call served at once leads there. -/
private def Reached (server : Server W A' E R) (w : W) (programs : I → Program E R α) (world : W)
    (mark : I → Option (W × W)) (threads : I → RemoteThread E R H T B α) (history : List (I × Event E R)) : Prop :=
  ∀ (rest : I → Program E R α) (more : I → List (Event E R)),
    (∀ i, Ahead server (mark i) (threads i) (rest i) (more i)) →
      ∃ trace past, Run (Pool.Step server) (Pool.initial w programs) trace ⟨world, rest, past⟩ ∧
        ∀ i, Pool.own past i = Pool.own history i ++ more i

section
variable {w world world' : W} {programs : I → Program E R α} {mark : I → Option (W × W)}
  {threads : I → RemoteThread E R H T B α} {history : List (I × Event E R)}

/-- The others go on in a state in which the world did something by itself. -/
private theorem Reached.acted (h : Reached server w programs world mark threads history)
    (acts : world' = world ∨ ∃ a, server.act world a world') :
    Reached server w programs world' mark threads history := by
  intro rest more ahead
  obtain ⟨trace, past, run, own⟩ := h rest more ahead
  rcases acts with rfl | ⟨a, acts⟩
  · exact ⟨trace, past, run, own⟩
  · exact ⟨_, past, run.snoc (.act acts), own⟩

/-- A thread without a mark moves on without a reply. -/
private theorem Reached.moved (h : Reached server w programs world mark threads history) {i : I}
    (unmarked : mark i = none) {thread : RemoteThread E R H T B α} (same : thread.rest = (threads i).rest) :
    Reached server w programs world mark (Function.update threads i thread) history := by
  intro rest more ahead
  refine h rest more fun j => ?_
  rcases eq_or_ne j i with rfl | hne
  · have here := ahead j
    rw [Function.update_self, unmarked] at here
    rw [unmarked]
    exact ⟨here.1.trans same, here.2⟩
  · simpa only [Function.update_of_ne hne] using ahead j

/-- A thread without a mark is served. -/
private theorem Reached.served (h : Reached server w programs world mark threads history) {i : I}
    (unmarked : mark i = none) {call : E} {next : R call → Program E R α} (waits : (threads i).rest = .call call next)
    {reply : R call} (served : server.serve world call reply world') (rest : I → Program E R α)
    (more : I → List (Event E R)) (others : ∀ j, j ≠ i → Ahead server (mark j) (threads j) (rest j) (more j))
    (got : rest i = next reply) : ∃ trace past,
      Run (Pool.Step server) (Pool.initial w programs) trace ⟨world', rest, past⟩ ∧
      Pool.own past i = Pool.own history i ++ [⟨call, reply⟩] ∧
      ∀ j, j ≠ i → Pool.own past j = Pool.own history j ++ more j := by
  obtain ⟨trace, past, run, own⟩ := h (Function.update rest i (.call call next)) (Function.update more i []) fun j => by
    rcases eq_or_ne j i with rfl | hne
    · rw [Function.update_self, Function.update_self, unmarked]
      exact ⟨waits.symm, rfl⟩
    · simpa only [Function.update_of_ne hne] using others j hne
  have pending : Function.update rest i (.call call next) i = .call call next := Function.update_self ..
  have step := run.snoc (.call pending served)
  rw [Function.update_idem, ← got, Function.update_eq_self] at step
  refine ⟨_, _, step, ?_, fun j hne => ?_⟩
  · simpa only [Pool.own_snoc_self, Function.update_self, List.append_nil] using congrArg (· ++ [⟨call, reply⟩]) (own i)
  · simpa only [Pool.own_snoc_of_ne _ hne, Function.update_of_ne hne] using own j

/-- A served thread has its reply; the marks of the others stay. -/
private theorem Reached.replied (h : Reached server w programs world mark threads history) {i : I}
    (unmarked : mark i = none) {call : E} {next : R call → Program E R α} (waits : (threads i).rest = .call call next)
    {reply : R call} (served : server.serve world call reply world') :
    Reached server w programs world' mark (Function.update threads i (.ready (next reply)))
      (history ++ [(i, ⟨call, reply⟩)]) := by
  intro rest more ahead
  have here := ahead i
  rw [Function.update_self, unmarked] at here
  obtain ⟨trace, past, run, own, others⟩ := h.served unmarked waits served rest more
    (fun j hne => by simpa only [Function.update_of_ne hne] using ahead j) here.1
  refine ⟨trace, past, run, fun j => ?_⟩
  rcases eq_or_ne j i with rfl | hne
  · rw [own, Pool.own_snoc_self, here.2, List.append_nil]
  · rw [others j hne, Pool.own_snoc_of_ne _ hne]

/-- A handler takes effect: its thread is marked with it. -/
private theorem Reached.effected (h : Reached server w programs world mark threads history) {i : I}
    (unmarked : mark i = none) {call : E} {next : R call → Program E R α} (waits : (threads i).rest = .call call next)
    (handler : Program H T B) : Reached server w programs world' (Function.update mark i (some (world, world')))
      (Function.update threads i (.handled call next handler)) history := by
  intro rest more ahead
  have here := ahead i
  rw [Function.update_self, Function.update_self] at here
  obtain ⟨reply, served, got, added⟩ := here
  obtain ⟨trace, past, run, own, others⟩ := h.served unmarked waits served rest more
    (fun j hne => by simpa only [Function.update_of_ne hne] using ahead j) got
  refine ⟨trace, past, run, fun j => ?_⟩
  rcases eq_or_ne j i with rfl | hne
  · rw [own, added]
  · exact others j hne

/-- A marked thread hears a reply with which its effect is one of the call. -/
private theorem Reached.heard (h : Reached server w programs world mark threads history) {i : I} {before after : W}
    (marked : mark i = some (before, after)) {call : E} {next : R call → Program E R α} {handler : Program H T B}
    (handled : threads i = .handled call next handler) {reply : R call} (served : server.serve before call reply after) :
    Reached server w programs world (Function.update mark i none)
      (Function.update threads i (.ready (next reply))) (history ++ [(i, ⟨call, reply⟩)]) := by
  intro rest more ahead
  have here := ahead i
  rw [Function.update_self, Function.update_self] at here
  obtain ⟨trace, past, run, own⟩ := h rest (Function.update more i [⟨call, reply⟩]) fun j => by
    rcases eq_or_ne j i with rfl | hne
    · rw [Function.update_self, marked, handled]
      exact ⟨reply, served, here.1, rfl⟩
    · simpa only [Function.update_of_ne hne] using ahead j
  refine ⟨trace, past, run, fun j => ?_⟩
  rcases eq_or_ne j i with rfl | hne
  · rw [own, Function.update_self, Pool.own_snoc_self, here.2, List.append_nil]
  · rw [own, Function.update_of_ne hne, Pool.own_snoc_of_ne _ hne]

/-- A marked handler goes on. -/
private theorem Reached.went (h : Reached server w programs world mark threads history) {i : I} {before after : W}
    (marked : mark i = some (before, after)) {call : E} {next : R call → Program E R α} {handler later : Program H T B}
    (handled : threads i = .handled call next handler) :
    Reached server w programs world mark (Function.update threads i (.handled call next later)) history := by
  intro rest more ahead
  refine h rest more fun j => ?_
  rcases eq_or_ne j i with rfl | hne
  · have here := ahead j
    rw [Function.update_self, marked] at here
    rw [marked, handled]
    exact here
  · simpa only [Function.update_of_ne hne] using ahead j

end

section
variable {programs : I → Program E R α} {w : W} {mark : I → Option (W × W)} {s s' : RemotePool I V E R H T B α}

private theorem Marked.of_ready {m : Option (W × W)} {rest : Program E R α}
    (h : Marked remote server view m (.ready rest)) : m = none := by
  cases m with
  | none => rfl
  | some m => exact h.elim

private theorem Marked.of_sent {m : Option (W × W)} {call : E} {next : R call → Program E R α}
    (h : Marked remote server view m (.sent call next)) : m = none := by
  cases m with
  | none => rfl
  | some m => exact h.elim

private theorem marked_update {threads : I → RemoteThread E R H T B α}
    (h : ∀ i, Marked remote server view (mark i) (threads i)) (i : I) {m : Option (W × W)}
    {thread : RemoteThread E R H T B α} (here : Marked remote server view m thread) (j : I) :
    Marked remote server view (Function.update mark i m j) (Function.update threads i thread j) := by
  rcases eq_or_ne j i with rfl | hne
  · simpa only [Function.update_self] using here
  · simpa only [Function.update_of_ne hne] using h j

private theorem marked_thread {threads : I → RemoteThread E R H T B α}
    (h : ∀ i, Marked remote server view (mark i) (threads i)) (i : I) {thread : RemoteThread E R H T B α}
    (here : Marked remote server view (mark i) thread) (j : I) :
    Marked remote server view (mark j) (Function.update threads i thread j) := by
  simpa only [Function.update_eq_self] using marked_update h i here j

/-- Only calls of this kind are still to be made. -/
private def Makes (made : E → Prop) (rest : Program E R α) : Prop :=
  rest.Meets (fun _ call => made call) (fun _ _ => True) []

private theorem Makes.next {call : E} {next : R call → Program E R α} (h : Makes made (.call call next)) (reply : R call) :
    Makes made (next reply) := (h.2 reply).anywhere []

private theorem makes_update {threads : I → RemoteThread E R H T B α} (h : ∀ i, Makes made (threads i).rest) (i : I)
    (thread : RemoteThread E R H T B α) (here : Makes made thread.rest) (j : I) :
    Makes made (Function.update threads i thread j).rest := by
  rcases eq_or_ne j i with rfl | hne
  · simpa only [Function.update_self] using here
  · simpa only [Function.update_of_ne hne] using h j

/-- What is known of a state that a run reached. -/
private def Known (remote : RemoteServer V A E R H T B) (server : Server W A' E R) (view : V → W) (made : E → Prop)
    (w : W) (programs : I → Program E R α) (s : RemotePool I V E R H T B α) : Prop :=
  ∃ mark, (∀ i, Marked remote server view (mark i) (s.threads i)) ∧ (∀ i, Makes made (s.threads i).rest) ∧
    Reached server w programs (view s.world) mark s.threads s.history

private theorem Step.known (implements : Implements remote server view made) {label : Label I A E R}
    (known : Known remote server view made w programs s) (step : Step remote s label s') :
    Known remote server view made w programs s' := by
  obtain ⟨mark, marked, makes, reached⟩ := known
  cases step with
  | @direct i call next reply world waits here served =>
    have rest := congrArg RemoteThread.rest waits
    have unmarked := Marked.of_ready (waits ▸ marked i)
    exact ⟨mark, marked_thread marked i (unmarked ▸ trivial), makes_update makes i _ ((rest ▸ makes i).next reply),
      reached.replied unmarked rest (implements.direct here served)⟩
  | @send i call next waits away =>
    have rest := congrArg RemoteThread.rest waits
    have unmarked := Marked.of_ready (waits ▸ marked i)
    exact ⟨mark, marked_thread marked i (unmarked ▸ away), makes_update makes i _ (rest ▸ makes i),
      reached.moved unmarked rest.symm⟩
  | @arrive i call next handler waits handles =>
    have rest := congrArg RemoteThread.rest waits
    have here := waits ▸ marked i
    have unmarked := Marked.of_sent here
    rw [unmarked] at here
    have pending := implements.pending (rest ▸ makes i).1 here handles
    exact ⟨mark, marked_thread marked i (unmarked ▸ ⟨here, pending⟩), makes_update makes i _ (rest ▸ makes i),
      reached.moved unmarked rest.symm⟩
  | @handle i call next request rest told world waits served =>
    have left := congrArg RemoteThread.rest waits
    have here := waits ▸ marked i
    have makes' := makes_update makes i (.handled call next (rest told)) (left ▸ makes i)
    cases found : mark i with
    | none =>
      rw [found] at here
      rcases here.2 s.world told world served with ⟨same, pending⟩ | ⟨lost, effected⟩
      · exact ⟨mark, marked_thread marked i (found ▸ ⟨here.1, pending⟩), makes',
          (reached.acted (.inl same)).moved found left.symm⟩
      · exact ⟨_, marked_update marked i (m := some (view s.world, view world)) ⟨here.1, lost, effected⟩, makes',
          reached.effected found left _⟩
    | some m =>
      obtain ⟨before, after⟩ := m
      rw [found] at here
      obtain ⟨same, effected⟩ := here.2.2 s.world told world served
      exact ⟨mark, marked_thread marked i (found ▸ ⟨here.1, here.2.1, effected⟩), makes',
        (reached.acted (.inl same)).went found waits⟩
  | @hear i call next answer reply waits hears =>
    have rest := congrArg RemoteThread.rest waits
    have here := waits ▸ marked i
    have makes' := makes_update makes i (.ready (next reply)) ((rest ▸ makes i).next reply)
    cases found : mark i with
    | none =>
      rw [found] at here
      exact ⟨mark, marked_thread marked i (found ▸ trivial), makes',
        reached.replied found rest (here.2 reply (view s.world) hears)⟩
    | some m =>
      obtain ⟨before, after⟩ := m
      rw [found] at here
      exact ⟨_, marked_update marked i (m := none) trivial, makes', reached.heard found waits (here.2.2 reply hears)⟩
  | @lose i call next reply waits lost =>
    have rest := congrArg RemoteThread.rest waits
    have unmarked := Marked.of_sent (waits ▸ marked i)
    exact ⟨mark, marked_thread marked i (unmarked ▸ trivial), makes_update makes i _ ((rest ▸ makes i).next reply),
      reached.replied unmarked rest (implements.lost lost _)⟩
  | @delay i call next reply handler waits lost _ =>
    have rest := congrArg RemoteThread.rest waits
    have unmarked := Marked.of_sent (waits ▸ marked i)
    exact ⟨mark, marked_thread marked i (unmarked ▸ trivial), makes_update makes i _ ((rest ▸ makes i).next reply),
      reached.replied unmarked rest (implements.lost lost _)⟩
  | @leave i call next reply handler waits lost =>
    have rest := congrArg RemoteThread.rest waits
    have here := waits ▸ marked i
    have makes' := makes_update makes i (.ready (next reply)) ((rest ▸ makes i).next reply)
    cases found : mark i with
    | none =>
      exact ⟨mark, marked_thread marked i (found ▸ trivial), makes',
        reached.replied found rest (implements.lost lost _)⟩
    | some m =>
      obtain ⟨before, after⟩ := m
      rw [found] at here
      exact ⟨_, marked_update marked i (m := none) trivial, makes', reached.heard found waits (here.2.1 reply lost)⟩
  | late _ served => exact ⟨mark, marked, makes, reached.acted (implements.elsewhere served)⟩
  | other _ => exact ⟨mark, marked, makes, reached⟩
  | act acts => exact ⟨mark, marked, makes, reached.acted (implements.acts acts)⟩

/-- Whatever a run with remote calls does, a run with every call served at once leads to the same world, and to every
thread as far as it is, or one reply further if it waits. -/
theorem run_implements {world : V} {trace : List (Label I A E R)} (implements : Implements remote server view made)
    (makes : ∀ i, (programs i).Meets (fun _ call => made call) (fun _ _ => True) [])
    (run : Run (Step remote) (initial world programs) trace s) :
    ∃ trace' a, Run (Pool.Step server) (Pool.initial (view world) programs) trace' a ∧ a.world = view s.world ∧
      ∀ i, ∃ more, Pool.own a.history i = Pool.own s.history i ++ more ∧ (s.threads i).Tracked (a.threads i) more := by
  have known : Known remote server view made (view world) programs s := by
    refine run.invariant (P := fun _ s => Known remote server view made (view world) programs s) ?_ ?_
    · refine ⟨fun _ => none, fun _ => trivial, makes, fun rest more ahead => ?_⟩
      obtain rfl : rest = programs := funext fun i => (ahead i).1
      exact ⟨[], [], .start, fun i => (ahead i).2 ▸ rfl⟩
    · exact fun _ known step => step.known implements known
  obtain ⟨mark, marked, _, reached⟩ := known
  have each (i : I) : ∃ rest more, Ahead server (mark i) (s.threads i) rest more ∧ (s.threads i).Tracked rest more := by
    have here := marked i
    cases found : mark i with
    | none => exact ⟨_, [], ⟨rfl, rfl⟩, .same _⟩
    | some m =>
      obtain ⟨before, after⟩ := m
      rw [found] at here
      cases thread : s.threads i with
      | ready | sent => exact (thread ▸ here).elim
      | handled call next handler =>
        rw [thread] at here
        obtain ⟨reply, lost⟩ := implements.gives here.1
        exact ⟨_, _, ⟨reply, here.2.1 reply lost, rfl, rfl⟩, .ahead call next handler reply⟩
  choose rest more each using each
  obtain ⟨trace', past, led, own⟩ := reached rest more fun i => (each i).1
  exact ⟨trace', _, led, rfl, fun i => ⟨more i, own i, (each i).2⟩⟩

end
end RemotePool
end Mooncache
