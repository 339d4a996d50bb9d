import Mooncache.Common.Ids
import Mooncache.Foundation.Words

/-! Per-tenant DRAM accounting. -/
namespace Mooncache

structure TenantQuota where
  dramBytes : Nat
  ssdBytes : Nat
  usedDramBytes : Nat
  usedSsdBytes : Nat
  deriving DecidableEq, Repr

namespace TenantQuota

def withUsage (dramBytes ssdBytes usedDramBytes : Nat) : TenantQuota :=
  ⟨dramBytes, ssdBytes, usedDramBytes, 0⟩

def reserveDram (quota : TenantQuota) (bytes : Nat) : CacheResult TenantQuota :=
  match checkedAdd quota.usedDramBytes bytes with
  | none => .error (.quotaExceeded "DRAM quota accounting overflow")
  | some nextUsed =>
    if nextUsed > quota.dramBytes then
      .error (.quotaExceeded
        s!"DRAM quota exceeded: requested {nextUsed} bytes, limit {quota.dramBytes} bytes")
    else .ok { quota with usedDramBytes := nextUsed }

/-- Truncated subtraction is the source's `saturating_sub`. -/
def releaseDram (quota : TenantQuota) (bytes : Nat) : TenantQuota :=
  { quota with usedDramBytes := quota.usedDramBytes - bytes }

/-- A reservation succeeds exactly when the exact sum fits the word and the limit. -/
theorem reserveDram_eq_ok {quota next : TenantQuota} {bytes : Nat} :
    quota.reserveDram bytes = .ok next ↔
      quota.usedDramBytes + bytes ≤ wordMax ∧ quota.usedDramBytes + bytes ≤ quota.dramBytes ∧
        next = { quota with usedDramBytes := quota.usedDramBytes + bytes } := by
  unfold reserveDram
  split
  · rename_i h
    simp only [checkedAdd, ite_eq_right_iff, reduceCtorEq, imp_false] at h
    simp [h]
  · rename_i used h
    obtain ⟨rfl, hw⟩ := checkedAdd_eq_some.mp h
    split
    · simp only [reduceCtorEq, false_iff]
      omega
    · simp only [Except.ok.injEq, hw, true_and]
      constructor
      · rintro rfl
        exact ⟨by omega, rfl⟩
      · exact fun h => h.2.symm

end TenantQuota
end Mooncache
