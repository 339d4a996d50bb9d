import Mathlib.Order.Basic
import Mooncache.Foundation.Remote

/-! What handlers may do while others go on, of whom they know only what never becomes false again. -/
namespace Mooncache
variable {K : Type} [Preorder K] {E : Type} {R : E → Type} {α β : Type}

namespace Program

/-- Whatever has become known since, the program may make its next call, goes on lawfully with what the reply tells, and
ends as it should. -/
def Lawful (may : K → E → Prop) (tells : K → (request : E) → R request → Prop) (ends : K → α → Prop) :
    K → Program E R α → Prop
  | k, done value => ∀ k', k ≤ k' → ends k' value
  | k, call request next => ∀ k', k ≤ k' → may k' request ∧
    ∀ reply, tells k' request reply → Lawful may tells ends k' (next reply)

variable {may : K → E → Prop} {tells : K → (request : E) → R request → Prop} {ends ends' : K → α → Prop} {k k' : K}
  {p : Program E R α}

theorem Lawful.mono (h : p.Lawful may tells ends k) (le : k ≤ k') : p.Lawful may tells ends k' := by
  cases p with
  | done value => exact fun later after => h later (le.trans after)
  | call request next => exact fun later after => h later (le.trans after)

theorem Lawful.weaken (h : p.Lawful may tells ends k) (weaker : ∀ k value, ends k value → ends' k value) :
    p.Lawful may tells ends' k := by
  induction p generalizing k with
  | done value => exact fun later after => weaker later value (h later after)
  | call request next ih =>
    intro later after
    obtain ⟨allowed, rest⟩ := h later after
    exact ⟨allowed, fun reply told => ih reply (rest reply told)⟩

/-- A sequence is lawful if its second half is, once the first has ended. -/
theorem Lawful.bind {f : α → Program E R β} {after : K → β → Prop} (first : p.Lawful may tells ends k)
    (rest : ∀ k', k ≤ k' → ∀ value, ends k' value → (f value).Lawful may tells after k') :
    (p >>= f).Lawful may tells after k := by
  induction p generalizing k with
  | done value => exact rest k le_rfl value (first k le_rfl)
  | call request next ih =>
    intro later le
    obtain ⟨allowed, goesOn⟩ := first later le
    exact ⟨allowed, fun reply told => ih reply (goesOn reply told) fun k' after => rest k' (le.trans after)⟩

end Program

variable {I V W A A' H B : Type} {T : H → Type}

namespace RemoteServer
open Program (Lawful)

/-- What of the world and the history goes with some knowledge is kept by all that a server does: the clients' calls
meet `pre`, and the handlers are lawful. -/
structure Keeps [DecidableEq I] (remote : RemoteServer V A E R H T B) (pre : I → List (Event E R) → E → Prop)
    (may : K → H → Prop) (tells : K → (request : H) → T request → Prop) (ends : E → K → B → Prop)
    (holds : K → V → List (I × Event E R) → Prop) : Prop where
  direct : ∀ {k v history i call reply v'}, holds k v history → pre i (Pool.own history i) call →
    ¬ remote.remote call → remote.direct.serve v call reply v' →
    ∃ k', k ≤ k' ∧ holds k' v' (history ++ [(i, ⟨call, reply⟩)])
  acts : ∀ {k v history action v'}, holds k v history → remote.direct.act v action v' →
    ∃ k', k ≤ k' ∧ holds k' v' history
  begins : ∀ {k v history i call handler}, holds k v history → pre i (Pool.own history i) call →
    remote.handles call handler → handler.Lawful may tells (ends call) k
  serves : ∀ {k v history request told v'}, holds k v history → may k request → remote.serve v request told v' →
    holds k v' history ∧ tells k request told
  hears : ∀ {k v history i call answer reply}, holds k v history → pre i (Pool.own history i) call →
    ends call k answer → remote.hears call answer reply →
    ∃ k', k ≤ k' ∧ holds k' v (history ++ [(i, ⟨call, reply⟩)])
  lost : ∀ {k v history i call reply}, holds k v history → pre i (Pool.own history i) call → remote.lost call reply →
    ∃ k', k ≤ k' ∧ holds k' v (history ++ [(i, ⟨call, reply⟩)])
  others : ∀ {k v history handler}, holds k v history → remote.others handler →
    handler.Lawful may tells (fun _ _ => True) k

/-- The remote calls do nothing that the view shows, and get replies that it allows. -/
structure Hides (remote : RemoteServer V A E R H T B) (server : Server W A' E R) (view : V → W) : Prop where
  direct : ∀ {v call reply v'}, ¬ remote.remote call → remote.direct.serve v call reply v' →
    server.serve (view v) call reply (view v')
  acts : ∀ {v action v'}, remote.direct.act v action v' → view v' = view v ∨ ∃ a, server.act (view v) a (view v')
  serves : ∀ {v request told v'}, remote.serve v request told v' → view v' = view v
  hears : ∀ {call answer reply} w, remote.hears call answer reply → server.serve w call reply w
  lost : ∀ {call reply} w, remote.lost call reply → server.serve w call reply w

end RemoteServer

namespace RemotePool
open Program (Lawful)

/-- The threads as far as they know, before what the view shows of the world. -/
def clients (view : V → W) (s : RemotePool I V E R H T B α) : Pool I W E R α :=
  ⟨view s.world, fun i => (s.threads i).rest, s.history⟩

variable [DecidableEq I] {remote : RemoteServer V A E R H T B} {programs : I → Program E R α} {world : V}
  {trace : List (Label I A E R)} {s s' : RemotePool I V E R H T B α}

private theorem rest_update (threads : I → RemoteThread E R H T B α) (i : I) (thread : RemoteThread E R H T B α) :
    (fun j => (Function.update threads i thread j).rest) =
      Function.update (fun j => (threads j).rest) i thread.rest :=
  funext fun j => Function.apply_update (fun _ => RemoteThread.rest) threads i thread j

section
variable {server : Server W A' E R} {view : V → W} (hides : remote.Hides server view)

include hides

/-- For the clients, the world does something by itself, or nothing happens, or one of them gets a reply. -/
private theorem Step.clients {label : Label I A E R} (step : Step remote s label s') :
    s'.clients view = s.clients view ∨ ∃ label', Pool.Step server (s.clients view) label' (s'.clients view) := by
  have replied {i : I} {call : E} {next : R call → Program E R α} {reply : R call} {world : V}
      {late : List (Program H T B)} (waits : (s.threads i).rest = .call call next)
      (served : server.serve (view s.world) call reply (view world)) :
      Pool.Step server (s.clients view) (.call i ⟨call, reply⟩)
        (({ s with world := world, late := late }.reply i ⟨call, reply⟩ (next reply)).clients view) := by
    simp only [RemotePool.clients, RemotePool.reply, rest_update]
    exact .call (s := s.clients view) waits served
  have moved {i : I} {thread : RemoteThread E R H T B α} {world : V} (same : thread.rest = (s.threads i).rest)
      (shown : view world = view s.world) :
      (({ s with world := world }.become i thread).clients view) = s.clients view := by
    simp only [RemotePool.clients, RemotePool.become, rest_update, same, shown, Function.update_eq_self_iff.mpr]
  cases step with
  | direct waits here served => exact .inr ⟨_, replied (congrArg RemoteThread.rest waits) (hides.direct here served)⟩
  | send waits _ => exact .inl (moved (congrArg RemoteThread.rest waits).symm rfl)
  | arrive waits _ => exact .inl (moved (congrArg RemoteThread.rest waits).symm rfl)
  | handle waits served => exact .inl (moved (congrArg RemoteThread.rest waits).symm (hides.serves served))
  | hear waits hears => exact .inr ⟨_, replied (congrArg RemoteThread.rest waits) (hides.hears _ hears)⟩
  | lose waits lost => exact .inr ⟨_, replied (congrArg RemoteThread.rest waits) (hides.lost _ lost)⟩
  | delay waits lost _ => exact .inr ⟨_, replied (congrArg RemoteThread.rest waits) (hides.lost _ lost)⟩
  | leave waits lost => exact .inr ⟨_, replied (congrArg RemoteThread.rest waits) (hides.lost _ lost)⟩
  | late _ served => exact .inl (by simp only [RemotePool.clients, hides.serves served])
  | other _ => exact .inl rfl
  | act acts =>
    rcases hides.acts acts with same | ⟨a, acts⟩
    · exact .inl (by simp only [RemotePool.clients, same])
    · exact .inr ⟨.act a, .act (s := s.clients view) acts⟩

/-- The clients run as before a server that serves every call at once. -/
theorem run_clients (run : Run (Step remote) (initial world programs) trace s) :
    ∃ trace', Run (Pool.Step server) (Pool.initial (view world) programs) trace' (s.clients view) := by
  induction run with
  | start => exact ⟨[], .start⟩
  | snoc _ last ih =>
    obtain ⟨trace', before⟩ := ih
    rcases last.clients hides with same | ⟨label, step⟩
    · exact ⟨trace', same ▸ before⟩
    · exact ⟨_, before.snoc step⟩

end

section
variable {pre : I → List (Event E R) → E → Prop} {may : K → H → Prop}
  {tells : K → (request : H) → T request → Prop} {ends : E → K → B → Prop} {holds : K → V → List (I × Event E R) → Prop}

/-- A handler that its client waits for is lawful. -/
private def Waits (may : K → H → Prop) (tells : K → (request : H) → T request → Prop) (ends : E → K → B → Prop) (k : K) :
    RemoteThread E R H T B α → Prop
  | .handled call _ handler => handler.Lawful may tells (ends call) k
  | _ => True

/-- What goes with some knowledge, of the world, the clients and the handlers. -/
private structure Lawfully (pre : I → List (Event E R) → E → Prop) (may : K → H → Prop)
    (tells : K → (request : H) → T request → Prop) (ends : E → K → B → Prop)
    (holds : K → V → List (I × Event E R) → Prop) (k : K) (s : RemotePool I V E R H T B α) : Prop where
  world : holds k s.world s.history
  rest : ∀ i, (s.threads i).rest.Meets (pre i) (fun _ _ => True) (Pool.own s.history i)
  waits : ∀ i, Waits may tells ends k (s.threads i)
  late : ∀ handler ∈ s.late, handler.Lawful may tells (fun _ _ => True) k

private theorem Waits.mono {k k' : K} {thread : RemoteThread E R H T B α} (h : Waits may tells ends k thread)
    (le : k ≤ k') : Waits may tells ends k' thread := by
  cases thread with
  | handled call next handler => exact Lawful.mono h le
  | _ => trivial

namespace Lawfully
variable {k k' : K}

private theorem waits_update {threads : I → RemoteThread E R H T B α}
    (h : ∀ i, Waits may tells ends k (threads i)) (le : k ≤ k') (i : I) {thread : RemoteThread E R H T B α}
    (here : Waits may tells ends k' thread) (j : I) : Waits may tells ends k' (Function.update threads i thread j) := by
  rcases eq_or_ne j i with rfl | hne
  · simpa only [Function.update_self] using here
  · simpa only [Function.update_of_ne hne] using (h j).mono le

/-- A thread moves on without a reply. -/
private theorem moved (h : Lawfully pre may tells ends holds k s) {i : I} {thread : RemoteThread E R H T B α} {world : V}
    (held : holds k world s.history) (same : thread.rest = (s.threads i).rest) (here : Waits may tells ends k thread) :
    Lawfully pre may tells ends holds k ({ s with world := world }.become i thread) where
  world := held
  rest j := by
    rcases eq_or_ne j i with rfl | hne
    · simpa only [become, Function.update_self, same] using h.rest j
    · simpa only [become, Function.update_of_ne hne] using h.rest j
  waits := waits_update h.waits le_rfl i here
  late := h.late

/-- A thread gets a reply, and may leave its handler. -/
private theorem replied (h : Lawfully pre may tells ends holds k s) (le : k ≤ k') {i : I} {call : E}
    {next : R call → Program E R α} (waits : (s.threads i).rest = .call call next) {reply : R call} {world : V}
    (held : holds k' world (s.history ++ [(i, ⟨call, reply⟩)])) {late : List (Program H T B)}
    (left : ∀ handler ∈ late, handler.Lawful may tells (fun _ _ => True) k') :
    Lawfully pre may tells ends holds k'
      ({ s with world := world, late := late }.reply i ⟨call, reply⟩ (next reply)) where
  world := held
  rest j := by
    rcases eq_or_ne j i with rfl | hne
    · have rest := h.rest j
      rw [waits] at rest
      simpa only [RemotePool.reply, Function.update_self, Pool.own_snoc_self, RemoteThread.rest] using rest.2 reply
    · simpa only [RemotePool.reply, Function.update_of_ne hne, Pool.own_snoc_of_ne _ hne] using h.rest j
  waits := waits_update h.waits le i trivial
  late := left

private theorem handler (h : Lawfully pre may tells ends holds k s) {i : I} {call : E} {next : R call → Program E R α}
    {handler : Program H T B} (waits : s.threads i = .handled call next handler) :
    handler.Lawful may tells (ends call) k := by
  have here := h.waits i
  rwa [waits] at here

private theorem late_append (h : Lawfully pre may tells ends holds k s) (le : k ≤ k') {handler : Program H T B}
    (last : handler.Lawful may tells (fun _ _ => True) k') :
    ∀ other ∈ s.late ++ [handler], other.Lawful may tells (fun _ _ => True) k' := by
  intro other member
  rcases List.mem_append.mp member with old | new
  · exact (h.late other old).mono le
  · exact List.mem_singleton.mp new ▸ last

/-- Every step keeps it, with more known perhaps. -/
private theorem step (keeps : remote.Keeps pre may tells ends holds) (h : Lawfully pre may tells ends holds k s)
    {label : Label I A E R} (step : Step remote s label s') : ∃ k', Lawfully pre may tells ends holds k' s' := by
  have asks {i : I} {call : E} {next : R call → Program E R α} (waits : (s.threads i).rest = .call call next) :
      pre i (Pool.own s.history i) call := (waits ▸ h.rest i).1
  have goesOn {request : H} {rest : T request → Program H T B} {ends : K → B → Prop} {told : T request} {world : V}
      (lawful : Lawful may tells ends k (.call request rest)) (served : remote.serve s.world request told world) :
      holds k world s.history ∧ (rest told).Lawful may tells ends k := by
    obtain ⟨allowed, lawful⟩ := lawful k le_rfl
    obtain ⟨held, informs⟩ := keeps.serves h.world allowed served
    exact ⟨held, lawful told informs⟩
  cases step with
  | @direct i call next reply world waits here served =>
    have rest := congrArg RemoteThread.rest waits
    obtain ⟨k', le, held⟩ := keeps.direct h.world (asks rest) here served
    exact ⟨k', h.replied le rest held fun handler member => (h.late handler member).mono le⟩
  | send waits _ => exact ⟨k, h.moved h.world (congrArg RemoteThread.rest waits).symm trivial⟩
  | arrive waits handles =>
    have rest := congrArg RemoteThread.rest waits
    exact ⟨k, h.moved h.world rest.symm (keeps.begins h.world (asks rest) handles)⟩
  | @handle i call next request rest told world waits served =>
    obtain ⟨held, lawful⟩ := goesOn (h.handler waits) served
    exact ⟨k, h.moved held (congrArg RemoteThread.rest waits).symm lawful⟩
  | @hear i call next answer reply waits hears =>
    have rest := congrArg RemoteThread.rest waits
    obtain ⟨k', le, held⟩ := keeps.hears h.world (asks rest) (h.handler waits k le_rfl) hears
    exact ⟨k', h.replied le rest held fun handler member => (h.late handler member).mono le⟩
  | lose waits lost =>
    have rest := congrArg RemoteThread.rest waits
    obtain ⟨k', le, held⟩ := keeps.lost h.world (asks rest) lost
    exact ⟨k', h.replied le rest held fun handler member => (h.late handler member).mono le⟩
  | delay waits lost handles =>
    have rest := congrArg RemoteThread.rest waits
    obtain ⟨k', le, held⟩ := keeps.lost h.world (asks rest) lost
    have begun := keeps.begins h.world (asks rest) handles
    exact ⟨k', h.replied le rest held (h.late_append le ((begun.weaken fun _ _ _ => trivial).mono le))⟩
  | @leave i call next reply handler waits lost =>
    have rest := congrArg RemoteThread.rest waits
    obtain ⟨k', le, held⟩ := keeps.lost h.world (asks rest) lost
    exact ⟨k', h.replied le rest held (h.late_append le (((h.handler waits).weaken fun _ _ _ => trivial).mono le))⟩
  | @late n request rest told world found served =>
    obtain ⟨held, lawful⟩ := goesOn (h.late _ (List.mem_of_getElem? found)) served
    refine ⟨k, { h with world := held, late := fun handler member => ?_ }⟩
    rcases List.mem_or_eq_of_mem_set member with old | rfl
    · exact h.late handler old
    · exact lawful
  | other some => exact ⟨k, { h with late := h.late_append le_rfl (keeps.others h.world some) }⟩
  | act acts =>
    obtain ⟨k', le, held⟩ := keeps.acts h.world acts
    exact ⟨k', held, h.rest, fun i => (h.waits i).mono le, fun handler member => (h.late handler member).mono le⟩

end Lawfully

/-- What a server keeps holds in every run of clients that meet its condition on calls. -/
theorem run_keeps (keeps : remote.Keeps pre may tells ends holds) {k : K} (start : holds k world [])
    (makes : ∀ i, (programs i).Meets (pre i) (fun _ _ => True) [])
    (run : Run (Step remote) (initial world programs) trace s) : ∃ k', holds k' s.world s.history := by
  have known : ∃ k', Lawfully pre may tells ends holds k' s := by
    refine run.invariant (P := fun _ s => ∃ k', Lawfully pre may tells ends holds k' s) ?_ ?_
    · exact ⟨k, start, makes, fun _ => trivial, fun _ member => by cases member⟩
    · exact fun _ ⟨_, lawfully⟩ step => lawfully.step keeps step
  obtain ⟨k', lawfully⟩ := known
  exact ⟨k', lawfully.world⟩

end
end RemotePool
end Mooncache
