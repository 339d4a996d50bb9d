import Mooncache.Master.Admission
import Mooncache.Master.Cluster
import Mooncache.Master.Restoration

/-! What a refused request leaves behind: nothing, unless the metadata could not be saved
after the operation had taken effect. -/
namespace Mooncache
namespace MasterState

/-- The objects, the quotas and the segments are the same. -/
structure SameResources (s s' : MasterState) : Prop where
  objects : s'.objects = s.objects
  quotas : s'.quotas = s.quotas
  allocator : s'.allocator = s.allocator

theorem SameResources.refl (s : MasterState) : SameResources s s := ⟨rfl, rfl, rfl⟩

theorem LifeStep.words {s s' : MasterState} {event : LifeEvent} (h : s.Words) (keyed : s.Keyed)
    (step : LifeStep s event s') : s'.Words := by
  cases event with
  | op op =>
    obtain ⟨enabled, rfl⟩ := step
    exact apply_words h enabled
  | restore objects quotas =>
    obtain ⟨he, rfl⟩ := step
    rw [restored_eq keyed he]
    exact ⟨h.quotas, fun segment member => by simp [new] at member⟩

theorem life_words {trace : List LifeEvent} {s : MasterState} (run : Run LifeStep new trace s) : s.Words := by
  induction run with
  | start => exact new_words
  | snoc run last ih => exact last.words ih (life_keyed run)

end MasterState

namespace MasterRequest

/-- The request is valid, and carrying it out would change objects, quotas or segments. -/
def TakesEffect (s : MasterState) : MasterRequest → Prop
  | putStart body => ∃ tenant key, TenantId.parse body.tenantId = .ok tenant ∧
    CacheKey.fromHex body.cacheKey = .ok key ∧ s.objects.lookup (tenant, key) = none ∧
    s.Fits tenant body.len body.replicaCount
  | putEnd body => ∃ tenant key object, TenantId.parse body.tenantId = .ok tenant ∧
    CacheKey.fromHex body.cacheKey = .ok key ∧ s.objects.lookup (tenant, key) = some object ∧
    (object.status = .reserving ∨ object.status = .writing)
  | putRevoke body => ∃ tenant key object, TenantId.parse body.tenantId = .ok tenant ∧
    CacheKey.fromHex body.cacheKey = .ok key ∧ s.objects.lookup (tenant, key) = some object ∧
    object.status ≠ .revoked
  | removeObject query => ∃ tenant key object, TenantId.parse query.tenantId = .ok tenant ∧
    CacheKey.fromHex query.cacheKey = .ok key ∧ s.objects.lookup (tenant, key) = some object
  | setTenantQuota body => ∃ tenant, TenantId.parse body.tenantId = .ok tenant ∧
    s.quotas.lookup tenant ≠ some (.withUsage body.dramBytes body.ssdBytes
      (Table.saturatingTotal (fun _ object => MasterState.tenantBytes tenant object) s.objects))
  | mountSegment _ => True
  | getReplicaList _ => False

end MasterRequest

namespace Handler
open Program
variable {J : Type} {saves : Except String Unit → Prop} {s s' : Cluster J} {response : MasterResponse}

/-- The request left the resources alone, or took effect and was answered by whether its
metadata could be saved. -/
def Kept (saves : Except String Unit → Prop) (s s' : Cluster J) (response : MasterResponse) (effect : Prop) : Prop :=
  MasterState.SameResources s.leader s'.leader ∨
  effect ∧ ∃ saved, saves saved ∧ (response.Success ↔ saved = .ok ())

/-- The end of a handler whose operation left the resources alone or succeeded. -/
theorem acknowledge_kept {α : Type} {result : CacheResult α} {leader : MasterState} {answer : α → MasterResponse}
    {effect : Prop} (success : ∀ value, (answer value).Success)
    (kept : MasterState.SameResources s.leader leader ∨ effect ∧ ∃ value, result = .ok value)
    (ran : Finishes (Cluster.Serves saves) { s with leader := leader } (acknowledge result answer) s' response) :
    Kept saves s s' response effect := by
  cases result with
  | error err =>
    obtain ⟨rfl, _⟩ := finishes_done.mp ran
    exact .inl (kept.resolve_right (by simp))
  | ok value =>
    obtain ⟨snapshot, _, ⟨_, ⟨_, still⟩, rfl⟩, ran⟩ := finishes_call.mp ran
    obtain ⟨saved, stored, ⟨saving, store⟩, ran⟩ := finishes_call.mp ran
    obtain ⟨_, _, ⟨_, rfl, rfl⟩, ran⟩ := finishes_call.mp ran
    have same : stored.leader = leader := by rcases store with rfl | ⟨_, rfl⟩ <;> exact still
    cases saved with
    | ok =>
      obtain ⟨rfl, rfl⟩ := finishes_done.mp ran
      exact kept.imp (fun kept => same ▸ kept) fun effect => ⟨effect.1, .ok (), saving, by simp [success value]⟩
    | error err =>
      obtain ⟨rfl, rfl⟩ := finishes_done.mp ran
      exact kept.imp (fun kept => same ▸ kept) fun effect =>
        ⟨effect.1, .error err, saving, by simp [MasterResponse.Success, MasterResponse.error]⟩

/-- A save that fails turns an accepted request into a refusal. -/
theorem acknowledge_unsaved {α : Type} {err : String} (fails : saves (.error err)) (s : Cluster J) (value : α)
    (answer : α → MasterResponse) : Finishes (Cluster.Serves saves) s (acknowledge (.ok value) answer) s
      (.error 503 ("metadata persistence failed: " ++ err)) := by
  have taken : s.leader.Snapshots (s.leader.metadataSnapshot s.leader.objects.entries.toList
      s.leader.quotas.entries.toList) :=
    ⟨_, _, ⟨Multiset.coe_toList _, Multiset.coe_toList _⟩, rfl⟩
  have unsaved : s.Serves saves (.save (s.leader.metadataSnapshot s.leader.objects.entries.toList
      s.leader.quotas.entries.toList)) (.error err) s := ⟨fails, .inr ⟨by simp, rfl⟩⟩
  have resumed : s.Serves saves .resume () s := ⟨s.leader, rfl, rfl⟩
  exact .call ⟨_, ⟨taken, rfl⟩, rfl⟩ (.call unsaved (.call resumed (.done _ _)))

theorem asLeader_kept {leadership : LeadershipState} {handler : Handler MasterResponse} {effect : Prop}
    (ran : Finishes (Cluster.Serves saves) s (asLeader leadership handler) s' response)
    (rest : Finishes (Cluster.Serves saves) s handler s' response → Kept saves s s' response effect) :
    Kept saves s s' response (leadership.isLeader = true ∧ effect) := by
  unfold asLeader requireLeader at ran
  cases leading : leadership.isLeader with
  | true =>
    rw [leading] at ran
    exact (rest ran).imp_right fun ⟨effect, answered⟩ => ⟨⟨rfl, effect⟩, answered⟩
  | false =>
    rw [leading] at ran
    obtain ⟨rfl, _⟩ := finishes_done.mp ran
    exact .inl (.refl _)

theorem withObject_kept {tenantId cacheKey : String} {handler : TenantId → CacheKey → Handler MasterResponse}
    {effect : Prop} (ran : Finishes (Cluster.Serves saves) s (withObject tenantId cacheKey handler) s' response)
    (rest : ∀ tenant key, TenantId.parse tenantId = .ok tenant → CacheKey.fromHex cacheKey = .ok key →
      Finishes (Cluster.Serves saves) s (handler tenant key) s' response → Kept saves s s' response effect) :
    Kept saves s s' response effect := by
  unfold withObject at ran
  split at ran
  · obtain ⟨rfl, _⟩ := finishes_done.mp ran
    exact .inl (.refl _)
  · split at ran
    · obtain ⟨rfl, _⟩ := finishes_done.mp ran
      exact .inl (.refl _)
    · exact rest _ _ ‹_› ‹_› ran

end Handler

namespace MasterRequest
open Program Handler
variable {J : Type} {saves : Except String Unit → Prop} {s s' : Cluster J} {response : MasterResponse}

private theorem putRevoke_kept (s : MasterState) (tenant : TenantId) (key : CacheKey) :
    MasterState.SameResources s (s.putRevoke tenant key).2 ∨
    ((∃ object, s.objects.lookup (tenant, key) = some object ∧ object.status ≠ .revoked) ∧
      (s.putRevoke tenant key).1 = .ok ()) := by
  rcases MasterState.putRevoke_cases s tenant key with ⟨_, he⟩ | ⟨object, found, he⟩
  · exact .inl (by rw [he]; exact .refl s)
  · rw [he]
    by_cases revoked : object.status = .revoked
    · left
      have objects : s.objects.insert (tenant, key) { object with status := .revoked } = s.objects :=
        Table.insert_lookup (by rw [found, ← revoked])
      refine ⟨by rw [MasterState.retire_objects, objects], ?_, MasterState.retire_allocator _ _ _ _⟩
      have nothing : quotaReservedBytes object = 0 := by simp [quotaReservedBytes, revoked, ObjectStatus.live]
      simp only [MasterState.retire, MasterState.releaseTenantQuota, nothing]
      split
      · rfl
      · rename_i quota present
        exact Table.insert_lookup present
    · exact .inr ⟨⟨object, found, revoked⟩, rfl⟩

private theorem setTenantQuota_kept (s : MasterState) (tenantId : String) (dramBytes ssdBytes : Nat) :
    MasterState.SameResources s (s.setTenantQuota tenantId dramBytes ssdBytes).2 ∨
    ((setTenantQuota ⟨tenantId, dramBytes, ssdBytes⟩).TakesEffect s ∧
      (s.setTenantQuota tenantId dramBytes ssdBytes).1 = .ok ()) := by
  simp only [MasterState.setTenantQuota, TakesEffect]
  cases parsed : TenantId.parse tenantId with
  | error err => exact .inl (.refl s)
  | ok tenant =>
    by_cases same : s.quotas.lookup tenant = some (.withUsage dramBytes ssdBytes
      (Table.saturatingTotal (fun _ object => MasterState.tenantBytes tenant object) s.objects))
    · exact .inl ⟨rfl, Table.insert_lookup same, rfl⟩
    · exact .inr ⟨⟨tenant, rfl, same⟩, rfl⟩

theorem handle_kept (words : s.leader.Words) {leadership : LeadershipState} (request : MasterRequest)
    (ran : Finishes (Cluster.Serves saves) s (request.handle leadership) s' response) :
    Kept saves s s' response (leadership.isLeader = true ∧ request.TakesEffect s.leader) := by
  cases request with
  | putStart body =>
    refine asLeader_kept ran fun ran => withObject_kept ran fun tenant key parsed keyed ran => ?_
    obtain ⟨reply, _, ⟨leader, served, rfl⟩, ran⟩ := finishes_call.mp ran
    refine acknowledge_kept (fun _ => ⟨le_rfl, by simp⟩) ?_ ran
    rcases MasterState.putStart_cases s.leader tenant key body.len body.replicaCount with
      ⟨err, he⟩ | ⟨_, _, _, _, absent, _, _, _, _, _, _, he⟩
    · cases (show (reply, leader) = _ from served).trans he
      exact .inl (.refl _)
    · have fits := ((MasterState.putStart_ok_iff words tenant key body.len body.replicaCount).mp ⟨_, by rw [he]⟩).2
      cases (show (reply, leader) = _ from served).trans he
      exact .inr ⟨⟨tenant, key, parsed, keyed, absent, fits⟩, _, rfl⟩
  | putEnd body =>
    refine asLeader_kept ran fun ran => withObject_kept ran fun tenant key parsed keyed ran => ?_
    obtain ⟨reply, _, ⟨leader, served, rfl⟩, ran⟩ := finishes_call.mp ran
    refine acknowledge_kept (fun _ => MasterResponse.acknowledged_success) ?_ ran
    rcases MasterState.putEnd_cases s.leader tenant key with ⟨err, he⟩ | ⟨object, found, unfinished, he⟩
    · cases (show (reply, leader) = _ from served).trans he
      exact .inl (.refl _)
    · cases (show (reply, leader) = _ from served).trans he
      exact .inr ⟨⟨tenant, key, object, parsed, keyed, found, unfinished⟩, _, rfl⟩
  | putRevoke body =>
    refine asLeader_kept ran fun ran => withObject_kept ran fun tenant key parsed keyed ran => ?_
    obtain ⟨reply, _, ⟨leader, served, rfl⟩, ran⟩ := finishes_call.mp ran
    refine acknowledge_kept (fun _ => MasterResponse.acknowledged_success) ?_ ran
    obtain ⟨rfl, rfl⟩ := Prod.mk.inj (show (reply, leader) = _ from served)
    exact (putRevoke_kept s.leader tenant key).imp_right fun ⟨⟨object, found, alive⟩, ok⟩ =>
      ⟨⟨tenant, key, object, parsed, keyed, found, alive⟩, _, ok⟩
  | getReplicaList query =>
    refine withObject_kept ran fun tenant key _ _ ran => ?_
    obtain ⟨reply, _, ⟨leader, ⟨nowMs, served⟩, rfl⟩, ran⟩ := finishes_call.mp ran
    have same : s'.leader = leader := by cases reply <;> exact congrArg Cluster.leader (finishes_done.mp ran).1
    left
    rw [same]
    rcases MasterState.getReplicaList_cases s.leader tenant key nowMs with he | ⟨_, _, _, _, _, _, he⟩
    · cases served.trans he
      exact .refl _
    · cases served.trans he
      exact ⟨rfl, rfl, rfl⟩
  | removeObject query =>
    refine asLeader_kept ran fun ran => withObject_kept ran fun tenant key parsed keyed ran => ?_
    obtain ⟨reply, _, ⟨leader, served, rfl⟩, ran⟩ := finishes_call.mp ran
    refine acknowledge_kept (fun _ => MasterResponse.acknowledged_success) ?_ ran
    rcases MasterState.remove_cases s.leader tenant key with ⟨_, he⟩ | ⟨object, found, ok, _⟩
    · cases (show (reply, leader) = _ from served).trans he
      exact .inl (.refl _)
    · have accepted : reply = (s.leader.remove tenant key).1 := congrArg Prod.fst (show (reply, leader) = _ from served)
      exact .inr ⟨⟨tenant, key, object, parsed, keyed, found⟩, _, accepted.trans ok⟩
  | setTenantQuota body =>
    refine asLeader_kept ran fun ran => ?_
    obtain ⟨reply, _, ⟨leader, served, rfl⟩, ran⟩ := finishes_call.mp ran
    refine acknowledge_kept (fun _ => MasterResponse.acknowledged_success) ?_ ran
    obtain ⟨rfl, rfl⟩ := Prod.mk.inj (show (reply, leader) = _ from served)
    exact (setTenantQuota_kept s.leader _ _ _).imp_right fun ⟨effect, ok⟩ => ⟨effect, _, ok⟩
  | mountSegment body =>
    refine asLeader_kept ran fun ran => ?_
    obtain ⟨reply, _, ⟨leader, served, rfl⟩, ran⟩ := finishes_call.mp ran
    exact acknowledge_kept (fun _ => MasterResponse.acknowledged_success) (.inr ⟨trivial, (), rfl⟩) ran

section
variable {master : MasterState} {tenant : TenantId} {key : CacheKey} {object : CacheObjectMeta}

private theorem putStart_changes {len replicaCount : Nat} {replicas : List ReplicaDescriptor}
    (absent : master.objects.lookup (tenant, key) = none)
    (started : (master.putStart tenant key len replicaCount).1 = .ok replicas) :
    ¬ MasterState.SameResources master (master.putStart tenant key len replicaCount).2 := by
  intro same
  rcases MasterState.putStart_cases master tenant key len replicaCount with
    ⟨err, he⟩ | ⟨_, _, _, _, _, _, _, _, _, _, _, he⟩
  · rw [he] at started
    cases started
  · have now := same.objects
    rw [he] at now
    have found := congrArg (Finmap.lookup (tenant, key)) now
    simp [absent] at found

private theorem putEnd_changes (found : master.objects.lookup (tenant, key) = some object)
    (unfinished : object.status = .reserving ∨ object.status = .writing) :
    (master.putEnd tenant key).1 = .ok () ∧ ¬ MasterState.SameResources master (master.putEnd tenant key).2 := by
  rcases MasterState.putEnd_cases master tenant key with ⟨err, he⟩ | ⟨_, hf, _, he⟩
  · exfalso
    rcases unfinished with status | status <;> simp [MasterState.putEnd, found, status] at he
  cases found.symm.trans hf
  refine ⟨by rw [he], fun same => ?_⟩
  have now := same.objects
  rw [he] at now
  have status := congrArg (Finmap.lookup (tenant, key)) now
  rw [found, Finmap.lookup_insert, Option.some.injEq] at status
  rw [← status] at unfinished
  simp at unfinished

private theorem putRevoke_changes (found : master.objects.lookup (tenant, key) = some object)
    (alive : object.status ≠ .revoked) :
    (master.putRevoke tenant key).1 = .ok () ∧ ¬ MasterState.SameResources master (master.putRevoke tenant key).2 := by
  rcases MasterState.putRevoke_cases master tenant key with ⟨absent, _⟩ | ⟨_, hf, he⟩
  · cases absent.symm.trans found
  cases found.symm.trans hf
  refine ⟨by rw [he], fun same => ?_⟩
  have now := same.objects
  rw [he, MasterState.retire_objects] at now
  have status := congrArg (Finmap.lookup (tenant, key)) now
  rw [found, Finmap.lookup_insert, Option.some.injEq] at status
  exact alive (by rw [← status])

private theorem remove_changes (found : master.objects.lookup (tenant, key) = some object) :
    (master.remove tenant key).1 = .ok () ∧ ¬ MasterState.SameResources master (master.remove tenant key).2 := by
  rcases MasterState.remove_cases master tenant key with ⟨absent, _⟩ | ⟨_, _, ok, leases, he⟩
  · cases absent.symm.trans found
  refine ⟨ok, fun same => ?_⟩
  have now := same.objects
  rw [he, MasterState.releaseTenantQuota_objects] at now
  have gone := congrArg (Finmap.lookup (tenant, key)) now
  rw [found, Finmap.lookup_erase] at gone
  cases gone

private theorem setTenantQuota_changes {tenantId : String} {dramBytes ssdBytes : Nat}
    (effect : (setTenantQuota ⟨tenantId, dramBytes, ssdBytes⟩).TakesEffect master) :
    (master.setTenantQuota tenantId dramBytes ssdBytes).1 = .ok () ∧
      ¬ MasterState.SameResources master (master.setTenantQuota tenantId dramBytes ssdBytes).2 := by
  obtain ⟨tenant, parsed, changed⟩ := effect
  refine ⟨by simp only [MasterState.setTenantQuota, parsed], fun same => ?_⟩
  have now := same.quotas
  simp only [MasterState.setTenantQuota, parsed] at now
  have record := congrArg (Finmap.lookup tenant) now
  rw [Finmap.lookup_insert] at record
  exact changed record.symm

private theorem mountSegment_changes (nodeId : String) (len : Nat) :
    ¬ MasterState.SameResources master (master.mountSegment nodeId len) := by
  intro same
  have now := congrArg (fun allocator => allocator.segments.length) same.allocator
  simp [MasterState.mountSegment, SegmentAllocator.mountSegment] at now

end

/-- A leader that cannot save refuses a request that has already taken effect. -/
theorem handle_unsaved (words : s.leader.Words) {leadership : LeadershipState} (leading : leadership.isLeader = true)
    (request : MasterRequest) (effect : request.TakesEffect s.leader) {err : String} (fails : saves (.error err)) :
    ∃ leader, Finishes (Cluster.Serves saves) s (request.handle leadership) { s with leader := leader }
        (.error 503 ("metadata persistence failed: " ++ err)) ∧
      ¬ MasterState.SameResources s.leader leader := by
  have led (handler : Handler MasterResponse) : asLeader leadership handler = handler := by
    simp only [asLeader, requireLeader, leading, ↓reduceIte]
  cases request with
  | putStart body =>
    obtain ⟨tenant, key, parsed, keyed, absent, fits⟩ := effect
    obtain ⟨replicas, started⟩ := (MasterState.putStart_ok_iff words tenant key _ _).mpr ⟨absent, fits⟩
    refine ⟨(s.leader.putStart tenant key body.len body.replicaCount).2, ?_, putStart_changes absent started⟩
    simp only [handle, Handler.putStart, led, withObject, parsed, keyed]
    refine finishes_call.mpr ⟨_, _, ⟨_, Prod.ext started.symm rfl, rfl⟩, ?_⟩
    exact acknowledge_unsaved fails _ replicas fun replicas =>
      ⟨200, .object [("replicas", .array (replicas.map ReplicaDescriptor.toValue))]⟩
  | putEnd body =>
    obtain ⟨tenant, key, object, parsed, keyed, found, unfinished⟩ := effect
    obtain ⟨ok, changes⟩ := putEnd_changes found unfinished
    refine ⟨(s.leader.putEnd tenant key).2, ?_, changes⟩
    simp only [handle, Handler.putEnd, led, withObject, parsed, keyed]
    refine finishes_call.mpr ⟨_, _, ⟨_, Prod.ext ok.symm rfl, rfl⟩, ?_⟩
    exact acknowledge_unsaved fails _ () fun () => .acknowledged
  | putRevoke body =>
    obtain ⟨tenant, key, object, parsed, keyed, found, alive⟩ := effect
    obtain ⟨ok, changes⟩ := putRevoke_changes found alive
    refine ⟨(s.leader.putRevoke tenant key).2, ?_, changes⟩
    simp only [handle, Handler.putRevoke, led, withObject, parsed, keyed]
    refine finishes_call.mpr ⟨_, _, ⟨_, Prod.ext ok.symm rfl, rfl⟩, ?_⟩
    exact acknowledge_unsaved fails _ () fun () => .acknowledged
  | getReplicaList query => exact effect.elim
  | removeObject query =>
    obtain ⟨tenant, key, object, parsed, keyed, found⟩ := effect
    obtain ⟨ok, changes⟩ := remove_changes found
    refine ⟨(s.leader.remove tenant key).2, ?_, changes⟩
    simp only [handle, Handler.removeObject, led, withObject, parsed, keyed]
    refine finishes_call.mpr ⟨_, _, ⟨_, Prod.ext ok.symm rfl, rfl⟩, ?_⟩
    exact acknowledge_unsaved fails _ () fun () => .acknowledged
  | setTenantQuota body =>
    obtain ⟨ok, changes⟩ := setTenantQuota_changes effect
    refine ⟨(s.leader.setTenantQuota body.tenantId body.dramBytes body.ssdBytes).2, ?_, changes⟩
    simp only [handle, Handler.setTenantQuota, led]
    refine finishes_call.mpr ⟨_, _, ⟨_, Prod.ext ok.symm rfl, rfl⟩, ?_⟩
    exact acknowledge_unsaved fails _ () fun () => .acknowledged
  | mountSegment body =>
    refine ⟨s.leader.mountSegment body.nodeId body.len, ?_, mountSegment_changes _ _⟩
    simp only [handle, Handler.mountSegment, led]
    refine finishes_call.mpr ⟨(), _, ⟨_, rfl, rfl⟩, ?_⟩
    exact acknowledge_unsaved fails _ () fun () => .acknowledged

/-- A refusal leaves the resources as they were, whatever the request, exactly when the
leader does not fail to save a request that takes effect. -/
theorem refused_unchanged_iff {trace : List MasterState.LifeEvent} (run : Run MasterState.LifeStep .new trace s.leader)
    (leadership : LeadershipState) (request : MasterRequest) (saved : Except String Unit) :
    (∀ s' response, Finishes (Cluster.Serves (· = saved)) s (request.handle leadership) s' response →
      ¬ response.Success → MasterState.SameResources s.leader s'.leader) ↔
    ¬ (leadership.isLeader = true ∧ request.TakesEffect s.leader ∧ ∃ err, saved = .error err) := by
  have words := MasterState.life_words run
  constructor
  · rintro unchanged ⟨leading, effect, err, rfl⟩
    obtain ⟨leader, ran, changed⟩ := @handle_unsaved J (· = .error err) s words _ leading request effect err rfl
    exact changed (unchanged _ _ ran (by simp [MasterResponse.Success, MasterResponse.error]))
  · intro kept s' response ran refused
    rcases handle_kept words request ran with same | ⟨⟨leading, effect⟩, outcome, rfl, answered⟩
    · exact same
    · cases outcome with
      | ok => exact absurd (answered.mpr rfl) refused
      | error err => exact absurd ⟨leading, effect, err, rfl⟩ kept

private def hexKey : String := "aaaaaaaaaaaaaaaaaaaaaaaaaaaaaaaaaaaaaaaaaaaaaaaaaaaaaaaaaaaaaaaa"

private def oneSegment : Cluster Empty := ⟨MasterState.new.mountSegment "default" 1048576, none, nofun⟩

private theorem oneSegment_run : Run MasterState.LifeStep .new [.op (.mountSegment "default" 1048576)]
    oneSegment.leader := Run.start.snoc ⟨by decide, rfl⟩

private def firstWrite : MasterRequest := .putStart ⟨"tenant-a", hexKey, 4, 1⟩

/-- A standby that refuses a write has not touched its state. -/
theorem standby_refusal_unchanged : ∃ s' response,
    Finishes (Cluster.Serves (· = .error "etcd is down")) oneSegment
      (firstWrite.handle (.standby "10.0.0.2:8081" "10.0.0.1:8081")) s' response ∧
    ¬ response.Success ∧ MasterState.SameResources oneSegment.leader s'.leader := by
  have ran : Finishes (Cluster.Serves (· = .error "etcd is down")) oneSegment
    (firstWrite.handle (.standby "10.0.0.2:8081" "10.0.0.1:8081")) oneSegment (.error 503 "master is not leader") :=
    .done _ _
  have refused : ¬ (MasterResponse.error 503 "master is not leader").Success := by
    simp [MasterResponse.Success, MasterResponse.error]
  have unchanged := (refused_unchanged_iff oneSegment_run (.standby "10.0.0.2:8081" "10.0.0.1:8081") firstWrite
    (.error "etcd is down")).mpr fun ⟨leading, _⟩ => absurd leading (by decide)
  exact ⟨_, _, ran, refused, unchanged _ _ ran refused⟩

/-- A write refused because it could not be saved has reserved its key. -/
theorem unsaved_write_keeps_reservation :
    ¬ ∀ (trace : List MasterState.LifeEvent) (s : Cluster Empty), Run MasterState.LifeStep .new trace s.leader →
      ∀ (leadership : LeadershipState) (request : MasterRequest) (saved : Except String Unit) (s' : Cluster Empty)
        (response : MasterResponse),
        Finishes (Cluster.Serves (· = saved)) s (request.handle leadership) s' response →
        ¬ response.Success → MasterState.SameResources s.leader s'.leader := by
  intro unchanged
  have effect : firstWrite.TakesEffect oneSegment.leader := by
    refine ⟨⟨"tenant-a"⟩, ⟨hexKey⟩, by decide, by decide, by decide, by decide, by decide, ?_, by decide⟩
    intro quota found
    simp [oneSegment, MasterState.mountSegment, MasterState.new] at found
  have leading : (LeadershipState.leader "10.0.0.1:8081").isLeader = true := by decide
  obtain ⟨leader, ran, changed⟩ := @handle_unsaved _ (· = .error "etcd is down") _
    (MasterState.life_words oneSegment_run) _ leading firstWrite effect _ rfl
  exact changed (unchanged _ _ oneSegment_run _ _ _ _ _ ran (by simp [MasterResponse.Success, MasterResponse.error]))

end MasterRequest
end Mooncache
