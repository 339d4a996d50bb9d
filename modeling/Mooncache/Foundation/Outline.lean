import Mooncache.Foundation.Threads

/-! Proof outlines for threads: a token says what a thread knows between its calls, one
invariant ties a pool to all tokens, and a call changes the token of its own thread only. -/
namespace Mooncache
open Program
variable {I W A E T : Type} {R : E → Type} {ρ α β : Type} [DecidableEq I]

/-- From this token on, every call of the thread keeps the invariant in the runs of the pool,
with a token that outlines the rest, and the result meets `post`. -/
def Outline (step : Pool I W E R ρ → Pool.Label I A E R → Pool I W E R ρ → Prop) (init : Pool I W E R ρ)
    (inv : Pool I W E R ρ → (I → T) → Prop) (i : I) (post : T → α → Prop) : T → Program E R α → Prop
  | token, done value => post token value
  | token, call request next => ∀ ⦃trace s s' tokens⦄ (reply : R request), Run step init trace s →
    step s (.call i ⟨request, reply⟩) s' → inv s tokens → tokens i = token →
    ∃ after, inv s' (Function.update tokens i after) ∧ Outline step init inv i post after (next reply)

namespace Outline
variable {step : Pool I W E R ρ → Pool.Label I A E R → Pool I W E R ρ → Prop} {init : Pool I W E R ρ}
  {inv : Pool I W E R ρ → (I → T) → Prop} {i : I} {token : T}

theorem mono {post post' : T → α → Prop} {p : Program E R α} (h : Outline step init inv i post token p)
    (results : ∀ token value, post token value → post' token value) : Outline step init inv i post' token p := by
  induction p generalizing token with
  | done value => exact results _ _ h
  | call request next ih =>
    intro trace s s' tokens reply run taken holds mine
    obtain ⟨after, kept, rest⟩ := h reply run taken holds mine
    exact ⟨after, kept, ih reply rest⟩

/-- A sequence is outlined by its two halves, through a condition between them. -/
theorem bind {m : T → α → Prop} {post : T → β → Prop} {p : Program E R α} {f : α → Program E R β}
    (first : Outline step init inv i m token p)
    (rest : ∀ token value, m token value → Outline step init inv i post token (f value)) :
    Outline step init inv i post token (p >>= f) := by
  induction p generalizing token with
  | done value => exact rest _ _ first
  | call request next ih =>
    intro trace s s' tokens reply run taken holds mine
    obtain ⟨after, kept, outlined⟩ := first reply run taken holds mine
    exact ⟨after, kept, ih reply outlined⟩

/-- Outlined threads keep the invariant in every run, if what happens between calls does. -/
theorem run {server : Server W A E R} {tokens : I → T} {post : I → T → ρ → Prop}
    (steps : ∀ {s label s'}, step s label s' → Pool.Step server s label s')
    (start : inv init tokens) (threads : ∀ i, Outline step init inv i (post i) (tokens i) (init.threads i))
    (acts : ∀ {trace s action s' tokens}, Run step init trace s → step s (.act action) s' → inv s tokens →
      inv s' tokens)
    {trace : List (Pool.Label I A E R)} {s : Pool I W E R ρ} (taken : Run step init trace s) :
    ∃ tokens, inv s tokens ∧ ∀ i, Outline step init inv i (post i) (tokens i) (s.threads i) := by
  induction taken with
  | start => exact ⟨tokens, start, threads⟩
  | @snoc trace s s' label before last ih =>
    obtain ⟨tokens, holds, outlined⟩ := ih
    have made := steps last
    cases made with
    | @call j request next reply world pending served =>
      have mine := outlined j
      rw [pending] at mine
      obtain ⟨after, kept, rest⟩ := mine reply before last holds rfl
      refine ⟨Function.update tokens j after, kept, fun i => ?_⟩
      rcases eq_or_ne i j with rfl | hne
      · simpa only [Function.update_self] using rest
      · simpa only [Function.update_of_ne hne] using outlined i
    | act _ => exact ⟨tokens, acts before last holds, outlined⟩

end Outline
end Mooncache
