import Mooncache.Foundation.Threads
import Mathlib.Data.Set.Basic

/-! Pools whose world crashes now and then. The threads that had begun by then are gone; the
others find what the world has kept. -/
namespace Mooncache
variable {I W A E : Type} {R : E → Type} {α : Type}

/-- A crash as one more thing that the world does by itself. -/
def Server.crashing (server : Server W A E R) (restart : W → W → Prop) : Server W (Option A) E R where
  serve := server.serve
  act w action w' :=
    match action with
    | some action => server.act w action w'
    | none => restart w w'

/-- A pool with the threads that a crash has stopped. -/
structure CrashPool (I W E : Type) (R : E → Type) (α : Type) where
  pool : Pool I W E R α
  gone : Set I

namespace CrashPool

def initial (world : W) (programs : I → Program E R α) : CrashPool I W E R α := ⟨Pool.initial world programs, ∅⟩

variable [DecidableEq I]

inductive Step (server : Server W A E R) (restart : W → W → Prop) (s : CrashPool I W E R α) :
    Pool.Label I (Option A) E R → CrashPool I W E R α → Prop
  | call {i : I} {event : Event E R} {pool : Pool I W E R α} : i ∉ s.gone →
      Pool.Step server s.pool (.call i event) pool → Step server restart s (.call i event) ⟨pool, s.gone⟩
  | act {action : A} {pool : Pool I W E R α} : Pool.Step server s.pool (.act action) pool →
      Step server restart s (.act (some action)) ⟨pool, s.gone⟩
  | crash {world : W} : restart s.pool.world world →
      Step server restart s (.act none) ⟨{ s.pool with world := world }, {i | Pool.own s.pool.history i ≠ []}⟩

section
variable {server : Server W A E R} {restart : W → W → Prop} {s s' : CrashPool I W E R α}
  {label : Pool.Label I (Option A) E R} {trace : List (Pool.Label I (Option A) E R)} {world : W}
  {programs : I → Program E R α}

theorem Step.pool (step : Step server restart s label s') :
    Pool.Step (server.crashing restart) s.pool label s'.pool := by
  cases step with
  | call _ step =>
    cases step with
    | call pending served => exact .call pending served
  | act step =>
    cases step with
    | act acted => exact .act acted
  | crash restarted => exact .act restarted

/-- Without the threads that are gone, a run is one of the pool. -/
theorem run_pool (run : Run (Step server restart) s trace s') :
    Run (Pool.Step (server.crashing restart)) s.pool trace s'.pool := by
  induction run with
  | start => exact .start
  | snoc _ last ih => exact ih.snoc last.pool

/-- What a program meets is met by its thread. -/
theorem run_meets {pre : List (Event E R) → E → Prop} {post : List (Event E R) → α → Prop} {i : I}
    (meets : (programs i).Meets pre post []) (run : Run (Step server restart) (initial world programs) trace s) :
    (s.pool.threads i).Meets pre post (Pool.own s.pool.history i) :=
  Pool.run_meets meets (run_pool run)

/-- A call from a pool: the thread that made it, its reply and what it leaves. -/
theorem Step.call_cases {i : I} {event : Event E R} (step : Step server restart s (.call i event) s') :
    i ∉ s.gone ∧ ∃ next world, s.pool.threads i = .call event.request next ∧
      server.serve s.pool.world event.request event.reply world ∧
      s' = ⟨⟨world, Function.update s.pool.threads i (next event.reply), s.pool.history ++ [(i, event)]⟩, s.gone⟩ := by
  cases step with
  | call alive step =>
    cases step with
    | call pending served => exact ⟨alive, _, _, pending, served, rfl⟩

section
variable {β : Type} {f : I → α → β}

/-- The threads with their results mapped. -/
def map (f : I → α → β) (s : CrashPool I W E R α) : CrashPool I W E R β :=
  ⟨⟨s.pool.world, fun i => (s.pool.threads i).bind fun result => .done (f i result), s.pool.history⟩, s.gone⟩

omit [DecidableEq I] in
private theorem call_of_map {g : α → β} {p : Program E R α} {request : E} {next : R request → Program E R β}
    (h : (p.bind fun result => .done (g result)) = .call request next) :
    ∃ rest, p = .call request rest ∧ next = fun reply => (rest reply).bind fun result => .done (g result) := by
  cases p with
  | done result => cases h
  | call other rest =>
    cases h
    exact ⟨rest, rfl, rfl⟩

private theorem update_map (threads : I → Program E R α) (i : I) (p : Program E R α) :
    Function.update (fun i => (threads i).bind fun result => .done (f i result)) i
        (p.bind fun result => .done (f i result)) =
      fun j => (Function.update threads i p j).bind fun result => Program.done (f j result) := by
  funext j
  rcases eq_or_ne j i with rfl | hne
  · simp only [Function.update_self]
  · simp only [Function.update_of_ne hne]

private theorem Step.of_map {s : CrashPool I W E R α} {t : CrashPool I W E R β}
    (step : Step server restart (s.map f) label t) : ∃ s', Step server restart s label s' ∧ t = s'.map f := by
  cases step with
  | call alive step =>
    cases step with
    | call pending served =>
      obtain ⟨rest, thread, rfl⟩ := call_of_map pending
      refine ⟨_, .call alive (.call thread served), ?_⟩
      exact congrArg (fun threads => CrashPool.mk (Pool.mk _ threads _) _) (update_map s.pool.threads _ (rest _))
  | act step =>
    cases step with
    | act acted => exact ⟨_, .act (.act acted), rfl⟩
  | crash restarted => exact ⟨_, .crash restarted, rfl⟩

/-- A run of threads with their results mapped is a run of the threads. -/
theorem run_of_map {guard : CrashPool I W E R α → Pool.Label I (Option A) E R → Prop}
    {guard' : CrashPool I W E R β → Pool.Label I (Option A) E R → Prop} {s : CrashPool I W E R α}
    {t : CrashPool I W E R β} (same : ∀ s l, guard' (s.map f) l → guard s l)
    (run : Run (Guarded guard' (Step server restart)) (s.map f) trace t) :
    ∃ s', Run (Guarded guard (Step server restart)) s trace s' ∧ t = s'.map f := by
  induction run with
  | start => exact ⟨s, .start, rfl⟩
  | snoc _ last ih =>
    obtain ⟨middle, before, rfl⟩ := ih
    obtain ⟨s', step, rfl⟩ := last.2.of_map
    exact ⟨s', before.snoc ⟨same _ _ last.1, step⟩, rfl⟩

omit [DecidableEq I] in
/-- A mapped thread has ended with the image of its result. -/
theorem done_of_map {s : CrashPool I W E R α} {i : I} {value : β} (h : (s.map f).pool.threads i = .done value) :
    ∃ result, s.pool.threads i = .done result ∧ f i result = value := by
  have ended : ((s.pool.threads i).bind fun result => .done (f i result)) = .done value := h
  cases thread : s.pool.threads i with
  | done result =>
    rw [thread] at ended
    exact ⟨result, rfl, Program.done.inj ended⟩
  | call request next =>
    rw [thread] at ended
    cases ended

end
end
end CrashPool
end Mooncache
