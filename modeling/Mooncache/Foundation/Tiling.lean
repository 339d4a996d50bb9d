import Mathlib.Data.List.Basic

/-! Intervals of naturals laid end to end. -/
namespace Mooncache
variable {α : Type*} {start len : α → Nat} {low high : Nat} {pieces : List α}

/-- The pieces, in order, fill `[low, high)` without gap or overlap. -/
def Tiles (start len : α → Nat) : Nat → List α → Nat → Prop
  | low, [], high => low = high
  | low, piece :: rest, high => start piece = low ∧ Tiles start len (low + len piece) rest high

theorem Tiles.snoc {piece : α} (h : Tiles start len low pieces high) (next : start piece = high) :
    Tiles start len low (pieces ++ [piece]) (high + len piece) := by
  induction pieces generalizing low with
  | nil =>
    cases h
    exact ⟨next, rfl⟩
  | cons first rest ih => exact ⟨h.1, ih h.2⟩

theorem Tiles.le (h : Tiles start len low pieces high) : low ≤ high := by
  induction pieces generalizing low with
  | nil => exact Nat.le_of_eq h
  | cons first rest ih => exact Nat.le_trans (Nat.le_add_right _ _) (ih h.2)

theorem Tiles.within (h : Tiles start len low pieces high) :
    ∀ piece ∈ pieces, low ≤ start piece ∧ start piece + len piece ≤ high := by
  induction pieces generalizing low with
  | nil => exact nofun
  | cons first rest ih =>
    obtain ⟨rfl, later⟩ := h
    intro piece member
    rcases List.mem_cons.mp member with rfl | member
    · exact ⟨Nat.le_refl _, later.le⟩
    · obtain ⟨above, below⟩ := ih later piece member
      exact ⟨Nat.le_trans (Nat.le_add_right _ _) above, below⟩

/-- An earlier piece ends before a later one starts. -/
theorem Tiles.apart (h : Tiles start len low pieces high) :
    pieces.Pairwise fun piece later => start piece + len piece ≤ start later := by
  induction pieces generalizing low with
  | nil => exact .nil
  | cons first rest ih =>
    obtain ⟨rfl, later⟩ := h
    exact .cons (fun piece member => (later.within piece member).1) (ih later)

/-- Every point of the interval, and no other, lies in a piece. -/
theorem Tiles.covers (h : Tiles start len low pieces high) (point : Nat) :
    (low ≤ point ∧ point < high) ↔ ∃ piece ∈ pieces, start piece ≤ point ∧ point < start piece + len piece := by
  constructor
  · rintro ⟨above, below⟩
    induction pieces generalizing low with
    | nil =>
      cases h
      omega
    | cons first rest ih =>
      obtain ⟨rfl, later⟩ := h
      by_cases here : point < start first + len first
      · exact ⟨first, List.mem_cons_self, above, here⟩
      · obtain ⟨piece, member, inside⟩ := ih later (Nat.not_lt.mp here)
        exact ⟨piece, List.mem_cons_of_mem _ member, inside⟩
  · rintro ⟨piece, member, above, below⟩
    obtain ⟨starts, ends⟩ := h.within piece member
    omega

end Mooncache
