import Mooncache.Master.Lifecycle

/-! Read leases under a clock that never goes back: what an operation does to the
lease of a key, and which operations end a leased object. -/
namespace Mooncache

/-- An operation and the time it is executed at. -/
structure TimedOp where
  op : MasterOp
  nowMs : Nat

/-- The clock readings an operation takes are the time it is executed at. -/
def MasterOp.ReadsClock (nowMs : Nat) : MasterOp → Prop
  | getReplicaList _ _ readMs | evictForTenant _ _ readMs _ => readMs = nowMs
  | _ => True

/-- The operations that end an object whatever lease it has. -/
def MasterOp.Ends (key : ObjectKey) : MasterOp → Prop
  | putRevoke tenant cacheKey | remove tenant cacheKey => (tenant, cacheKey) = key
  | _ => False

/-- A master and the last time its clock showed. -/
structure ClockedMaster where
  master : MasterState
  clockMs : Nat

namespace ClockedMaster

def apply (s : ClockedMaster) (timed : TimedOp) : ClockedMaster := ⟨timed.op.apply s.master, timed.nowMs⟩

/-- The clock has not gone back, and the operation is enabled. -/
def Allowed (s : ClockedMaster) (timed : TimedOp) : Prop :=
  s.clockMs ≤ timed.nowMs ∧ timed.op.ReadsClock timed.nowMs ∧ timed.op.Enabled s.master

def Step (s : ClockedMaster) (timed : TimedOp) (s' : ClockedMaster) : Prop :=
  s.Allowed timed ∧ s' = s.apply timed

end ClockedMaster

namespace MasterState

/-- The state after a sequence of operations from the empty state. -/
def replay (trace : List TimedOp) : MasterState :=
  trace.foldl (fun s timed => timed.op.apply s) new

/-- A read in the sequence returned `list` for the object that is still stored under the key. -/
inductive Leased (key : ObjectKey) (list : ReplicaList) : List TimedOp → Prop
  | read {trace : List TimedOp} {nowMs : Nat} :
      ((replay trace).getReplicaList key.1 key.2 nowMs).1 = .ok list →
      Leased key list (trace ++ [⟨.getReplicaList key.1 key.2 nowMs, nowMs⟩])
  | later {trace : List TimedOp} {timed : TimedOp} : Leased key list trace →
      (key, .removed) ∉ (replay trace).lifecycle timed.op → Leased key list (trace ++ [timed])

/-- The state after a sequence of operations from a given one. -/
def replayFrom (init : MasterState) (trace : List TimedOp) : MasterState :=
  trace.foldl (fun s timed => timed.op.apply s) init

/-- The same for a sequence that starts in a given state. -/
inductive LeasedFrom (init : MasterState) (key : ObjectKey) (list : ReplicaList) : List TimedOp → Prop
  | read {trace : List TimedOp} {nowMs : Nat} :
      ((replayFrom init trace).getReplicaList key.1 key.2 nowMs).1 = .ok list →
      LeasedFrom init key list (trace ++ [⟨.getReplicaList key.1 key.2 nowMs, nowMs⟩])
  | later {trace : List TimedOp} {timed : TimedOp} : LeasedFrom init key list trace →
      (key, .removed) ∉ (replayFrom init trace).lifecycle timed.op → LeasedFrom init key list (trace ++ [timed])

/-- An object under an unexpired lease is still committed after the operation, with its replicas. -/
def Protects (before : List TimedOp) (timed : TimedOp) : Prop :=
  ∀ key list, Leased key list before → timed.nowMs < list.lease.expiresAtMs →
    ∃ object, (timed.op.apply (replay before)).objects.lookup key = some object ∧
      object.status = .committed ∧ object.replicas = list.replicas

/-- The operation ends no object whose lease in the tracker is active. -/
def Spares (before : List TimedOp) (timed : TimedOp) : Prop :=
  ∀ key, timed.op.Ends key → hasActiveLease (replay before).leases key timed.nowMs = false

theorem LeasedFrom.leased {key : ObjectKey} {list : ReplicaList} {trace : List TimedOp}
    (h : LeasedFrom new key list trace) : Leased key list trace := by
  induction h with
  | read read => exact .read read
  | later _ stays ih => exact ih.later stays

theorem replayFrom_snoc (init : MasterState) (trace : List TimedOp) (timed : TimedOp) :
    replayFrom init (trace ++ [timed]) = timed.op.apply (replayFrom init trace) := by
  simp [replayFrom]

@[simp] theorem releaseTenantQuota_leases (s : MasterState) (tenant : TenantId) (bytes : Nat) :
    (s.releaseTenantQuota tenant bytes).leases = s.leases := by
  rw [releaseTenantQuota_frame]

theorem retire_leases (s : MasterState) (key : ObjectKey) (object : CacheObjectMeta) (status : ObjectStatus) :
    (s.retire key object status).leases = s.leases.erase key := by
  simp [retire]

/-- The loop drops the leases of the keys it evicts and no other. -/
theorem evictCandidateKeys_leases (tenant : TenantId) (target : Nat) (keys : List CacheKey) (reclaimed : Nat)
    (s : MasterState) (key : ObjectKey) :
    (evictCandidateKeys tenant target keys reclaimed s).2.leases.lookup key =
      if key ∈ evictedKeys tenant target keys reclaimed s then none else s.leases.lookup key := by
  induction keys generalizing reclaimed s with
  | nil => simp [evictCandidateKeys, evictedKeys]
  | cons first rest ih =>
    unfold evictCandidateKeys evictedKeys
    split
    · simp
    · cases found : s.objects.lookup (tenant, first) with
      | none => exact ih reclaimed s
      | some object =>
        have dropped : (s.evictObject (tenant, first) object).leases = s.leases.erase (tenant, first) :=
          retire_leases s (tenant, first) object .evicted
        simp only [ih, dropped, List.mem_cons]
        rcases eq_or_ne key (tenant, first) with rfl | hne
        · simp
        · simp [hne]

theorem evictForTenant_leases (s : MasterState) (tenant : TenantId) (target nowMs : Nat)
    (order : List (Entry ObjectKey CacheObjectMeta)) (key : ObjectKey) :
    (s.evictForTenant tenant target nowMs order).2.leases.lookup key =
      if key ∈ s.pickedKeys tenant target nowMs order then none else s.leases.lookup key := by
  simp only [evictForTenant, pickedKeys]
  split
  · simp only [evictCandidateKeys_leases, List.mem_append]
    split <;> rename_i later <;> simp [later]
  · simp only [evictCandidateKeys_leases, List.append_nil]

/-- A read that succeeds grants one lifetime and records the lease. -/
theorem getReplicaList_grant {s : MasterState} {tenant : TenantId} {key : CacheKey} {nowMs : Nat}
    {list : ReplicaList} (h : (s.getReplicaList tenant key nowMs).1 = .ok list) :
    list.lease.expiresAtMs = saturatingAdd nowMs defaultLeaseTtlMs ∧
    (s.getReplicaList tenant key nowMs).2.objects = s.objects ∧
    (s.getReplicaList tenant key nowMs).2.leases = s.leases.insert (tenant, key) list.lease := by
  cases found : s.objects.lookup (tenant, key) with
  | none => simp [getReplicaList, found] at h
  | some object =>
    by_cases committed : object.status = .committed
    · simp only [getReplicaList, found, committed, ne_eq, not_true_eq_false, ↓reduceIte, Except.ok.injEq] at h ⊢
      rw [← h]
      exact ⟨rfl, trivial, rfl⟩
    · simp [getReplicaList, found, committed] at h

/-- What an operation does to the lease of a key: nothing, drop it, or grant a new one. -/
theorem apply_leases (s : MasterState) (op : MasterOp) (key : ObjectKey) :
    ((op.apply s).leases.lookup key = s.leases.lookup key ∧ (key, .removed) ∉ s.lifecycle op) ∨
    ((op.apply s).leases.lookup key = none ∧ (s.lifecycle op).eventsOf key ≠ []) ∨
    ∃ nowMs list, op = .getReplicaList key.1 key.2 nowMs ∧
      (s.getReplicaList key.1 key.2 nowMs).1 = .ok list ∧
      (op.apply s).leases.lookup key = some list.lease ∧
      list.lease.expiresAtMs = saturatingAdd nowMs defaultLeaseTtlMs := by
  cases op with
  | setTenantQuota tenantId dramBytes ssdBytes =>
    refine .inl ⟨?_, by simp [lifecycle]⟩
    simp only [MasterOp.apply, setTenantQuota]
    split <;> rfl
  | mountSegment nodeId len => exact .inl ⟨rfl, by simp [lifecycle]⟩
  | putStart tenant cacheKey len replicaCount =>
    left
    rcases putStart_cases s tenant cacheKey len replicaCount with
      ⟨err, he⟩ | ⟨reserved, allocations, after, _, _, hr, _, _, _, _, _, he⟩
    · simp [lifecycle, MasterOp.apply, he]
    · simp only [lifecycle, MasterOp.apply, he]
      exact ⟨by rw [reserveTenantQuota_frame hr], by simp⟩
  | putEnd tenant cacheKey =>
    left
    rcases putEnd_cases s tenant cacheKey with ⟨err, he⟩ | ⟨object, _, _, he⟩ <;>
      simp [lifecycle, MasterOp.apply, he]
  | putRevoke tenant cacheKey =>
    rcases putRevoke_cases s tenant cacheKey with ⟨_, he⟩ | ⟨object, _, he⟩
    · simp [lifecycle, MasterOp.apply, he]
    · simp only [lifecycle, MasterOp.apply, he, retire_leases]
      rcases eq_or_ne key (tenant, cacheKey) with rfl | hne
      · simp
      · simp [hne]
  | getReplicaList tenant cacheKey nowMs =>
    rcases eq_or_ne key (tenant, cacheKey) with rfl | hne
    · cases found : s.objects.lookup (tenant, cacheKey) with
      | none => simp [lifecycle, MasterOp.apply, getReplicaList, found]
      | some object =>
        by_cases committed : object.status = .committed
        · have read : (s.getReplicaList tenant cacheKey nowMs).1 =
              .ok ⟨object.replicas, .newAt (saturatingAdd s.nextLeaseSequence 1) nowMs⟩ := by
            simp [getReplicaList, found, committed]
          obtain ⟨ttl, _, granted⟩ := getReplicaList_grant read
          exact .inr (.inr ⟨nowMs, _, rfl, read, by rw [MasterOp.apply, granted, Finmap.lookup_insert], ttl⟩)
        · simp [lifecycle, MasterOp.apply, getReplicaList, found, committed]
    · left
      cases found : s.objects.lookup (tenant, cacheKey) with
      | none => simp [lifecycle, MasterOp.apply, getReplicaList, found]
      | some object =>
        by_cases committed : object.status = .committed <;>
          simp [lifecycle, MasterOp.apply, getReplicaList, found, committed, hne]
  | remove tenant cacheKey =>
    cases found : s.objects.lookup (tenant, cacheKey) with
    | none => simp [lifecycle, MasterOp.apply, remove, found]
    | some object =>
      simp only [lifecycle, MasterOp.apply, remove, found, releaseTenantQuota_leases]
      rcases eq_or_ne key (tenant, cacheKey) with rfl | hne
      · simp
      · simp [hne]
  | evictForTenant tenant target nowMs order =>
    simp only [lifecycle, MasterOp.apply, evictForTenant_leases]
    split
    · rename_i picked
      refine .inr (.inl ⟨rfl, List.ne_nil_of_mem (a := .evicted) ?_⟩)
      exact LifecycleHistory.mem_eventsOf.mpr (List.mem_map.mpr ⟨key, picked, rfl⟩)
    · simp

/-- Eviction passes over a leased object. -/
theorem pickedKeys_unleased {s : MasterState} {tenant : TenantId} {target nowMs : Nat}
    {order : List (Entry ObjectKey CacheObjectMeta)} {key : ObjectKey}
    (leased : hasActiveLease s.leases key nowMs = true) : key ∉ s.pickedKeys tenant target nowMs order := by
  intro picked
  obtain ⟨entry, _, own, cls, chosen⟩ := pickedKeys_candidate picked
  rw [own, leased] at chosen
  cases (candidateClass_committed chosen).2.1

/-- Under an active lease a committed object outlives every operation that does not end it. -/
theorem leased_lifecycle {s : MasterState} {op : MasterOp} {key : ObjectKey} {object : CacheObjectMeta}
    {nowMs : Nat} (clock : op.ReadsClock nowMs) (found : s.objects.lookup key = some object)
    (committed : object.status = .committed) (leased : hasActiveLease s.leases key nowMs = true)
    (spared : ¬ op.Ends key) : (s.lifecycle op).eventsOf key = [] := by
  cases op with
  | setTenantQuota | mountSegment | getReplicaList => rfl
  | putStart tenant cacheKey len replicaCount =>
    rcases putStart_cases s tenant cacheKey len replicaCount with ⟨err, he⟩ | ⟨_, _, _, _, absent, _, _, _, _, _, _, he⟩
    · simp [lifecycle, he]
    · have hne : key ≠ (tenant, cacheKey) := by
        rintro rfl
        rw [found] at absent
        cases absent
      simp [lifecycle, he, hne]
  | putEnd tenant cacheKey =>
    rcases putEnd_cases s tenant cacheKey with ⟨err, he⟩ | ⟨written, hw, unfinished, he⟩
    · simp [lifecycle, he]
    · have hne : key ≠ (tenant, cacheKey) := by
        rintro rfl
        cases hw.symm.trans found
        simp [committed] at unfinished
      simp [lifecycle, he, hne]
  | putRevoke tenant cacheKey | remove tenant cacheKey =>
    have hne : key ≠ (tenant, cacheKey) := fun same => spared same.symm
    simp only [lifecycle]
    split <;> simp [hne]
  | evictForTenant tenant target readMs order =>
    cases clock
    have passed := @pickedKeys_unleased s tenant target _ order key leased
    simp only [lifecycle, LifecycleHistory.eventsOf, List.filterMap_map, List.filterMap_eq_nil_iff]
    rintro other picked
    have hne : other ≠ key := fun same => passed (same ▸ picked)
    simp [hne]

/-- A lease handed out expires at most one lifetime from now, and until it does its object
is committed and tracked for at least as long. -/
structure Held (key : ObjectKey) (list : ReplicaList) (s : ClockedMaster) : Prop where
  fresh : list.lease.expiresAtMs ≤ saturatingAdd s.clockMs defaultLeaseTtlMs
  tracked : s.clockMs < list.lease.expiresAtMs → ∃ object lease,
    s.master.objects.lookup key = some object ∧ object.status = .committed ∧
      object.replicas = list.replicas ∧ s.master.leases.lookup key = some lease ∧
      list.lease.expiresAtMs ≤ lease.expiresAtMs

private theorem saturatingAdd_mono {a b : Nat} (h : a ≤ b) (c : Nat) : saturatingAdd a c ≤ saturatingAdd b c := by
  simp only [saturatingAdd]
  omega

theorem Held.step {key : ObjectKey} {list : ReplicaList} {s s' : ClockedMaster} {timed : TimedOp}
    (h : Held key list s) (step : s.Step timed s')
    (spared : timed.op.Ends key → hasActiveLease s.master.leases key timed.nowMs = false) : Held key list s' := by
  obtain ⟨⟨order, clock, _⟩, rfl⟩ := step
  have later := saturatingAdd_mono order defaultLeaseTtlMs
  refine ⟨h.fresh.trans later, fun active => ?_⟩
  simp only [ClockedMaster.apply] at active ⊢
  obtain ⟨object, lease, found, committed, same, kept, bound⟩ := h.tracked (by omega)
  have leased : hasActiveLease s.master.leases key timed.nowMs = true := by
    simp only [hasActiveLease, kept, decide_eq_true_eq]
    omega
  have quiet := leased_lifecycle clock found committed leased fun ends => by
    rw [spared ends] at leased
    cases leased
  have stays := (lifecycle_moves s.master timed.op).lookup_of_quiet quiet
  rcases apply_leases s.master timed.op key with ⟨unchanged, _⟩ | ⟨_, ended⟩ | ⟨readMs, again, hop, read, granted, ttl⟩
  · exact ⟨object, lease, stays.trans found, committed, same, unchanged.trans kept, bound⟩
  · exact absurd quiet ended
  · have reading : readMs = timed.nowMs := by rw [hop] at clock; exact clock
    refine ⟨object, again.lease, stays.trans found, committed, same, granted, ?_⟩
    rw [ttl, reading]
    exact h.fresh.trans later

section
variable {clockMs : Nat} {trace : List TimedOp} {s : ClockedMaster}

theorem timed_replayFrom {init : MasterState} (run : Run ClockedMaster.Step ⟨init, clockMs⟩ trace s) :
    s.master = replayFrom init trace := by
  induction run with
  | start => rfl
  | snoc _ last ih => rw [replayFrom_snoc, ← ih, last.2, ClockedMaster.apply]

theorem timed_replay (run : Run ClockedMaster.Step ⟨new, clockMs⟩ trace s) : s.master = replay trace :=
  timed_replayFrom run

/-- While operations spare leased objects, every lease handed out is held. -/
theorem run_held (run : Run ClockedMaster.Step ⟨new, clockMs⟩ trace s)
    (spares : ∀ before timed after, trace = before ++ timed :: after → Spares before timed)
    {key : ObjectKey} {list : ReplicaList} (leased : Leased key list trace) : Held key list s := by
  induction run with
  | start =>
    generalize none : ([] : List TimedOp) = empty at leased
    cases leased <;> simp at none
  | @snoc trace s s' timed run last ih =>
    have earlier : ∀ before timed after, trace = before ++ timed :: after → Spares before timed :=
      fun before other after same => spares before other (after ++ [timed]) (by rw [same, List.append_assoc, List.cons_append])
    generalize whole : trace ++ [timed] = all at leased
    cases leased with
    | @read before nowMs read =>
      obtain ⟨rfl, same⟩ := List.append_inj' whole rfl
      cases same
      rw [← timed_replay run] at read
      obtain ⟨_, rfl⟩ := last
      obtain ⟨ttl, objects, leases⟩ := getReplicaList_grant read
      obtain ⟨object, found, committed, replicas⟩ := getReplicaList_replicas read
      refine ⟨ttl.le, fun _ => ⟨object, list.lease, ?_, committed, replicas.symm, ?_, le_rfl⟩⟩
      · rw [ClockedMaster.apply, MasterOp.apply, objects, found]
      · rw [ClockedMaster.apply, MasterOp.apply, leases, Finmap.lookup_insert]
    | @later before other leased _ =>
      obtain ⟨rfl, same⟩ := List.append_inj' whole rfl
      cases same
      refine (ih earlier leased).step last fun ends => ?_
      rw [timed_replay run]
      exact spares trace timed [] rfl key ends

/-- Every lease the tracker holds was handed out for the object that is still stored. -/
theorem run_sourcedFrom {init : MasterState} (unleased : init.leases = ∅)
    (run : Run ClockedMaster.Step ⟨init, clockMs⟩ trace s) {key : ObjectKey} {lease : Lease}
    (tracked : s.master.leases.lookup key = some lease) :
    ∃ list, LeasedFrom init key list trace ∧ list.lease = lease := by
  induction run with
  | start => simp [unleased] at tracked
  | @snoc trace s s' timed run last ih =>
    obtain ⟨⟨_, clock, _⟩, rfl⟩ := last
    have before := timed_replayFrom run
    rw [ClockedMaster.apply] at tracked
    rcases apply_leases s.master timed.op key with
      ⟨unchanged, stays⟩ | ⟨dropped, _⟩ | ⟨readMs, list, hop, read, granted, _⟩
    · obtain ⟨list, leased, same⟩ := ih (unchanged.symm.trans tracked)
      exact ⟨list, leased.later (before ▸ stays), same⟩
    · rw [dropped] at tracked
      cases tracked
    · obtain ⟨op, nowMs⟩ := timed
      subst hop
      have reading : readMs = nowMs := clock
      subst reading
      rw [granted, Option.some.injEq] at tracked
      exact ⟨list, .read (before ▸ read), tracked⟩

theorem run_sourced (run : Run ClockedMaster.Step ⟨new, clockMs⟩ trace s) {key : ObjectKey} {lease : Lease}
    (tracked : s.master.leases.lookup key = some lease) : ∃ list, Leased key list trace ∧ list.lease = lease := by
  obtain ⟨list, leased, same⟩ := run_sourcedFrom rfl run tracked
  exact ⟨list, leased.leased, same⟩

/-- An operation that ends an object leaves none that is committed. -/
theorem ends_uncommitted (s : MasterState) {op : MasterOp} {key : ObjectKey} (ends : op.Ends key)
    {object : CacheObjectMeta} (left : (op.apply s).objects.lookup key = some object) :
    object.status ≠ .committed := by
  cases op with
  | putRevoke tenant cacheKey =>
    cases ends
    rcases putRevoke_cases s tenant cacheKey with ⟨absent, he⟩ | ⟨found, _, he⟩ <;> rw [MasterOp.apply, he] at left
    · cases absent.symm.trans left
    · rw [retire_objects, Finmap.lookup_insert, Option.some.injEq] at left
      simp [← left]
  | remove tenant cacheKey =>
    cases ends
    rcases remove_cases s tenant cacheKey with ⟨absent, he⟩ | ⟨found, _, _, leases, he⟩ <;>
      rw [MasterOp.apply, he] at left
    · cases absent.symm.trans left
    · simp at left
  | _ => cases ends

/-- Leases protect their objects in a run exactly when no step of it revokes or removes
an object that the tracker holds an active lease for. -/
theorem leases_protect_iff (run : Run ClockedMaster.Step ⟨new, clockMs⟩ trace s) :
    (∀ before timed after, trace = before ++ timed :: after → Protects before timed) ↔
      ∀ before timed after, trace = before ++ timed :: after → Spares before timed := by
  constructor
  · intro protects before timed after whole key ends
    rw [whole] at run
    obtain ⟨middle, _, first, _, _⟩ := run.split
    rw [← timed_replay first]
    by_contra active
    simp only [hasActiveLease, Bool.not_eq_false] at active
    split at active
    · rename_i lease tracked
      obtain ⟨list, leased, rfl⟩ := run_sourced first tracked
      obtain ⟨object, left, committed, _⟩ :=
        protects before timed after whole key list leased (by simpa using active)
      exact ends_uncommitted _ ends left committed
    · cases active
  · intro spares before timed after whole key list leased active
    rw [whole] at run
    obtain ⟨middle, next, first, last, _⟩ := run.split
    have held := run_held first (fun earlier op rest same =>
      spares earlier op (rest ++ timed :: after) (by rw [whole, same, List.append_assoc, List.cons_append])) leased
    have kept := held.step last fun ends => by
      rw [timed_replay first]
      exact spares before timed after whole key ends
    obtain ⟨object, lease, found, committed, same, _⟩ := kept.tracked (by rw [last.2]; exact active)
    rw [last.2, ClockedMaster.apply, timed_replay first] at found
    exact ⟨object, found, committed, same⟩

end

private def storedReply : List TimedOp :=
  [⟨.mountSegment "store-0" 16, 0⟩, ⟨.putStart ⟨"tenant-a"⟩ ⟨"key"⟩ 4 1, 0⟩, ⟨.putEnd ⟨"tenant-a"⟩ ⟨"key"⟩, 0⟩]

/-- A reply that is stored, and read at time 10. -/
def readReply : List TimedOp := storedReply ++ [⟨.getReplicaList ⟨"tenant-a"⟩ ⟨"key"⟩ 10, 10⟩]

theorem readReply_run :
    Run ClockedMaster.Step ⟨new, 0⟩ readReply (readReply.foldl ClockedMaster.apply ⟨new, 0⟩) :=
  Run.of_allowed (fun _ _ allowed => ⟨allowed, rfl⟩) ⟨⟨le_rfl, trivial, by decide⟩, ⟨le_rfl, trivial, by decide⟩,
    ⟨le_rfl, trivial, trivial⟩, ⟨by decide, rfl, trivial⟩, trivial⟩

private theorem readReply_then {timed : TimedOp} (allowed : (⟨replay readReply, 10⟩ : ClockedMaster).Allowed timed) :
    Run ClockedMaster.Step ⟨new, 0⟩ (readReply ++ [timed]) (ClockedMaster.apply ⟨replay readReply, 10⟩ timed) :=
  readReply_run.snoc ⟨allowed, rfl⟩

theorem readReply_leased : ∃ list, Leased (⟨"tenant-a"⟩, ⟨"key"⟩) list readReply ∧ list.lease.expiresAtMs = 5010 := by
  obtain ⟨list, read⟩ := (getReplicaList_ok_iff (replay storedReply) ⟨"tenant-a"⟩ ⟨"key"⟩ 10).mpr (by decide)
  exact ⟨list, .read read, (getReplicaList_grant read).1⟩

/-- The enumeration of its object map. -/
def readReplyOrder : List (Entry ObjectKey CacheObjectMeta) :=
  [⟨(⟨"tenant-a"⟩, ⟨"key"⟩), ⟨⟨"tenant-a"⟩, ⟨"key"⟩, 4, .committed, [⟨"store-0", 0, 4⟩], false, none⟩⟩]

private def evictLater : TimedOp := ⟨.evictForTenant ⟨"tenant-a"⟩ 4 20 readReplyOrder, 20⟩

/-- A reply read ten milliseconds ago outlives an eviction. -/
theorem leased_reply_survives_eviction :
    ∃ object, (evictLater.op.apply (replay readReply)).objects.lookup (⟨"tenant-a"⟩, ⟨"key"⟩) = some object ∧
      object.status = .committed := by
  have run := @readReply_then evictLater ⟨by decide, rfl, by decide⟩
  obtain ⟨list, leased, ttl⟩ := readReply_leased
  have protects := (leases_protect_iff run).mpr fun before timed after whole key ends => by
    have member : timed ∈ readReply ++ [evictLater] := by simp [whole]
    simp only [readReply, storedReply, List.cons_append, List.nil_append, List.mem_cons, List.not_mem_nil,
      or_false] at member
    rcases member with rfl | rfl | rfl | rfl | rfl <;> cases ends
  obtain ⟨object, found, committed, _⟩ := protects readReply evictLater [] rfl _ list leased (by
    rw [ttl]
    decide)
  exact ⟨object, found, committed⟩

private def removeLater : TimedOp := ⟨.remove ⟨"tenant-a"⟩ ⟨"key"⟩, 20⟩

/-- Removing a reply ten milliseconds after it was read leaves the reader's lease without an object. -/
theorem remove_ignores_lease :
    ¬ ∀ clockMs trace s, Run ClockedMaster.Step ⟨new, clockMs⟩ trace s →
      ∀ before timed after, trace = before ++ timed :: after → Protects before timed := by
  intro protects
  have run := @readReply_then removeLater ⟨by decide, trivial, trivial⟩
  obtain ⟨list, leased, ttl⟩ := readReply_leased
  obtain ⟨object, found, _⟩ := protects _ _ _ run readReply _ [] rfl _ list leased (by
    rw [ttl]
    decide)
  have gone : ((replay readReply).remove ⟨"tenant-a"⟩ ⟨"key"⟩).2.objects.lookup (⟨"tenant-a"⟩, ⟨"key"⟩) = none := by
    decide
  cases gone.symm.trans found

end MasterState
end Mooncache
