import Mathlib.Data.List.Basic

/-! Reading and overwriting a stretch of a list. -/
namespace Mooncache
variable {α : Type*}

def slice (cells : List α) (offset len : Nat) : List α := (cells.drop offset).take len

theorem getElem?_slice (cells : List α) (offset : Nat) {len i : Nat} (h : i < len) :
    (slice cells offset len)[i]? = cells[offset + i]? := by
  rw [slice, List.getElem?_take_of_lt h, List.getElem?_drop]

/-- Overwrite the cells from `offset` on with `written`. -/
def splice (cells : List α) (offset : Nat) (written : List α) : List α :=
  cells.take offset ++ written ++ cells.drop (offset + written.length)

theorem length_splice {cells written : List α} {offset : Nat}
    (h : offset + written.length ≤ cells.length) :
    (splice cells offset written).length = cells.length := by
  simp only [splice, List.length_append, List.length_take, List.length_drop]
  omega

theorem slice_splice_same {cells written : List α} {offset : Nat}
    (h : offset + written.length ≤ cells.length) :
    slice (splice cells offset written) offset written.length = written := by
  have start : (cells.take offset).length = offset := by
    rw [List.length_take]
    omega
  rw [slice, splice, List.append_assoc, List.drop_left' start, List.take_left]

/-- Writing back what is there changes nothing. -/
theorem splice_slice {cells : List α} {offset len : Nat} (h : offset + len ≤ cells.length) :
    splice cells offset (slice cells offset len) = cells := by
  have length : (slice cells offset len).length = len := by
    rw [slice, List.length_take, List.length_drop]
    omega
  rw [splice, length, List.append_assoc, slice, ← List.drop_drop, List.take_append_drop, List.take_append_drop]

private theorem getElem?_splice_of_outside {cells written : List α} {offset i : Nat}
    (h : offset + written.length ≤ cells.length) (outside : i < offset ∨ offset + written.length ≤ i) :
    (splice cells offset written)[i]? = cells[i]? := by
  have start : (cells.take offset).length = offset := by
    rw [List.length_take]
    omega
  rcases outside with before | after
  · rw [splice, List.append_assoc, List.getElem?_append_left (by omega), List.getElem?_take_of_lt before]
  · have both : (cells.take offset ++ written).length = offset + written.length := by
      rw [List.length_append, start]
    rw [splice, List.getElem?_append_right (by omega), both, List.getElem?_drop]
    congr 1
    omega

private theorem getElem?_splice_of_inside {cells written : List α} {offset i : Nat}
    (h : offset + written.length ≤ cells.length) (start : offset ≤ i) (inside : i < offset + written.length) :
    (splice cells offset written)[i]? = written[i - offset]? := by
  have length : (cells.take offset).length = offset := by
    rw [List.length_take]
    omega
  rw [splice, List.append_assoc, List.getElem?_append_right (by omega), length,
    List.getElem?_append_left (by omega)]

/-- A stretch keeps its cells under a write that puts the same cells where the two meet. -/
theorem slice_splice_eq_iff {cells written : List α} {offset other len : Nat}
    (h : offset + written.length ≤ cells.length) :
    slice (splice cells offset written) other len = slice cells other len ↔
      ∀ i, other ≤ i → i < other + len → offset ≤ i → i < offset + written.length →
        written[i - offset]? = cells[i]? := by
  constructor
  · intro same i low high start stop
    have here := congrArg (fun all : List α => all[i - other]?) same
    rw [getElem?_slice _ _ (by omega), getElem?_slice _ _ (by omega), show other + (i - other) = i by omega,
      getElem?_splice_of_inside h start stop] at here
    exact here
  · intro agree
    apply List.ext_getElem?
    intro i
    by_cases hi : i < len
    · rw [getElem?_slice _ _ hi, getElem?_slice _ _ hi]
      by_cases inside : offset ≤ other + i ∧ other + i < offset + written.length
      · rw [getElem?_splice_of_inside h inside.1 inside.2]
        exact agree (other + i) (by omega) (by omega) inside.1 inside.2
      · exact getElem?_splice_of_outside h (by omega)
    · rw [slice, slice, List.getElem?_take_eq_none (by omega), List.getElem?_take_eq_none (by omega)]

/-- Overwriting a stretch leaves the stretches beside it. -/
theorem slice_splice_of_disjoint {cells written : List α} {offset other len : Nat}
    (h : offset + written.length ≤ cells.length)
    (apart : other + len ≤ offset ∨ offset + written.length ≤ other) :
    slice (splice cells offset written) other len = slice cells other len :=
  (slice_splice_eq_iff h).mpr fun i low high start stop => by omega

end Mooncache
