import Mathlib.Algebra.BigOperators.Group.List.Basic
import Mathlib.Algebra.GroupWithZero.Nat
import Mathlib.Data.List.Nodup

/-! The shortest prefix of a list whose weights reach a target, or the whole list. -/
namespace Mooncache
variable {α : Type} {weight : α → Nat}

def reaching (weight : α → Nat) : Nat → List α → List α
  | _, [] => []
  | target, x :: rest => if target = 0 then [] else x :: reaching weight (target - weight x) rest

def totalWeight (weight : α → Nat) (l : List α) : Nat := (l.map weight).sum

@[simp] theorem totalWeight_nil (weight : α → Nat) : totalWeight weight [] = 0 := rfl

@[simp] theorem totalWeight_cons (weight : α → Nat) (x : α) (l : List α) :
    totalWeight weight (x :: l) = weight x + totalWeight weight l := by
  simp [totalWeight]

theorem totalWeight_append (weight : α → Nat) (l rest : List α) :
    totalWeight weight (l ++ rest) = totalWeight weight l + totalWeight weight rest := by
  simp [totalWeight]

theorem totalWeight_congr {other : α → Nat} {l : List α} (same : ∀ x ∈ l, weight x = other x) :
    totalWeight weight l = totalWeight other l := by
  rw [totalWeight, totalWeight, List.map_congr_left same]

@[simp] theorem reaching_nil (weight : α → Nat) (target : Nat) : reaching weight target [] = [] := by
  cases target <;> rfl

@[simp] theorem reaching_zero (weight : α → Nat) (l : List α) : reaching weight 0 l = [] := by
  cases l <;> rfl

theorem reaching_cons {target : Nat} (positive : 0 < target) (x : α) (l : List α) :
    reaching weight target (x :: l) = x :: reaching weight (target - weight x) l :=
  if_neg (Nat.ne_of_gt positive)

theorem reaching_congr {other : α → Nat} {l : List α} (same : ∀ x ∈ l, weight x = other x) (target : Nat) :
    reaching weight target l = reaching other target l := by
  induction l generalizing target with
  | nil => simp
  | cons x rest ih =>
    have later := ih fun y member => same y (List.mem_cons_of_mem _ member)
    rw [reaching, reaching, same x List.mem_cons_self, later]

theorem reaching_initial (weight : α → Nat) (target : Nat) (l : List α) : reaching weight target l <+: l := by
  induction l generalizing target with
  | nil => simp
  | cons x rest ih =>
    rw [reaching]
    split
    · exact List.nil_prefix
    · exact List.prefix_cons_inj x |>.mpr (ih _)

theorem mem_of_mem_reaching {target : Nat} {l : List α} {x : α} (h : x ∈ reaching weight target l) : x ∈ l :=
  (reaching_initial weight target l).subset h

/-- A list that falls short of the target is taken whole, and then the next list for what is left. -/
theorem reaching_append (weight : α → Nat) (target : Nat) (l rest : List α) :
    reaching weight target (l ++ rest) =
      reaching weight target l ++ reaching weight (target - totalWeight weight l) rest := by
  induction l generalizing target with
  | nil => simp
  | cons x l ih =>
    rcases target.eq_zero_or_pos with rfl | positive
    · simp
    · rw [List.cons_append, reaching_cons positive, reaching_cons positive, ih, totalWeight_cons, Nat.sub_sub,
        List.cons_append]

/-- Short of the target nothing is left out. -/
theorem reaching_eq_self {target : Nat} {l : List α} (short : totalWeight weight (reaching weight target l) < target) :
    reaching weight target l = l := by
  induction l generalizing target with
  | nil => simp
  | cons x rest ih =>
    rw [reaching_cons (by omega), totalWeight_cons] at short
    rw [reaching_cons (by omega), ih (by omega)]

/-- Before the last element the target is not reached. -/
theorem reaching_minimal {target : Nat} {l earlier : List α} {last : α}
    (split : reaching weight target l = earlier ++ [last]) : totalWeight weight earlier < target := by
  induction l generalizing target earlier with
  | nil => simp at split
  | cons x rest ih =>
    rcases target.eq_zero_or_pos with rfl | positive
    · simp at split
    · rw [reaching_cons positive] at split
      cases earlier with
      | nil => exact positive
      | cons first earlier =>
        rw [List.cons_append] at split
        have before := ih (List.cons.inj split).2
        rw [(List.cons.inj split).1] at before
        rw [totalWeight_cons]
        omega

theorem totalWeight_le_of_initial {l rest : List α} (h : l <+: rest) :
    totalWeight weight l ≤ totalWeight weight rest := by
  obtain ⟨more, rfl⟩ := h
  rw [totalWeight_append]
  omega

/-- An element of the second list is taken only after the whole first one. -/
theorem subset_of_mem_reaching {target : Nat} {l rest : List α} {x : α} (member : x ∈ reaching weight target (l ++ rest))
    (later : x ∉ l) : ∀ y ∈ l, y ∈ reaching weight target (l ++ rest) := by
  rw [reaching_append, List.mem_append] at member
  have taken := member.resolve_left (mt mem_of_mem_reaching later)
  have short : totalWeight weight l < target := by
    by_contra reached
    rw [Nat.sub_eq_zero_of_le (Nat.le_of_not_lt reached), reaching_zero] at taken
    exact absurd taken List.not_mem_nil
  have whole := reaching_eq_self
    (Nat.lt_of_le_of_lt (totalWeight_le_of_initial (reaching_initial weight target l)) short)
  intro y held
  rw [reaching_append, whole]
  exact List.mem_append_left _ held

end Mooncache
