import Mathlib.Init

/-! Unsigned 64-bit arithmetic on naturals with an explicit bound.
A value of the word type is a natural at most `wordMax`. -/
namespace Mooncache

/-- The largest 64-bit word: `u64::MAX`, and `usize::MAX` on a 64-bit target. -/
def wordMax : Nat := 18446744073709551615

def checkedAdd (a b : Nat) : Option Nat :=
  if a + b ≤ wordMax then some (a + b) else none

def saturatingAdd (a b : Nat) : Nat := min (a + b) wordMax

theorem checkedAdd_eq_some {a b c : Nat} :
    checkedAdd a b = some c ↔ c = a + b ∧ a + b ≤ wordMax := by
  unfold checkedAdd
  split <;> simp_all [eq_comm]

theorem saturatingAdd_of_le {a b : Nat} (h : a + b ≤ wordMax) : saturatingAdd a b = a + b :=
  Nat.min_eq_left h

theorem saturatingAdd_right_comm (a b c : Nat) :
    saturatingAdd (saturatingAdd a b) c = saturatingAdd (saturatingAdd a c) b := by
  simp only [saturatingAdd]
  omega

end Mooncache
