import Mooncache.Master.Effects
import Mooncache.Master.Fleet

/-! What the masters of one etcd hold has a history: a leader was asked for it, whichever
process that was and however many restarts lie between. -/
namespace Mooncache
open Program

/-! Every number that is saved is a word. -/

structure CacheObjectMeta.Words (object : CacheObjectMeta) : Prop where
  len : object.len ≤ wordMax
  replicas : ∀ replica ∈ object.replicas, replica.offset ≤ wordMax ∧ replica.len ≤ wordMax
  pin : ∀ n ∈ object.softPinnedUntilMs, n ≤ wordMax

structure TenantQuota.Words (quota : TenantQuota) : Prop where
  dram : quota.dramBytes ≤ wordMax
  ssd : quota.ssdBytes ≤ wordMax
  usedDram : quota.usedDramBytes ≤ wordMax
  usedSsd : quota.usedSsdBytes ≤ wordMax

structure MasterMetadataSnapshot.Words (snapshot : MasterMetadataSnapshot) : Prop where
  objects : ∀ object ∈ snapshot.objects, object.Words
  quotas : ∀ entry ∈ snapshot.quotas, entry.2.Words
  evictions : snapshot.evictionsTotal ≤ wordMax

namespace Handler

/-- A master that does not lead only looks objects up. -/
def Allowed (leadership : LeadershipState) (call : MasterCall) : Prop :=
  call.Words ∧ (leadership.isLeader = true ∨ ∃ tenant key, call = .getReplicaList tenant key)

variable {leadership : LeadershipState} {past : List MasterEvent}

private theorem acknowledge_allowed {α : Type} (leads : leadership.isLeader = true) (result : CacheResult α)
    (answer : α → MasterResponse) :
    (acknowledge result answer).Meets (fun _ => Allowed leadership) (fun _ _ => True) past := by
  cases result with
  | error err => trivial
  | ok value =>
    refine ⟨⟨trivial, .inl leads⟩, fun snapshot => ⟨⟨trivial, .inl leads⟩, fun saved => ⟨⟨trivial, .inl leads⟩, fun _ => ?_⟩⟩⟩
    cases saved <;> trivial

private theorem asLeader_allowed {handler : Handler MasterResponse}
    (h : leadership.isLeader = true → handler.Meets (fun _ => Allowed leadership) (fun _ _ => True) past) :
    (asLeader leadership handler).Meets (fun _ => Allowed leadership) (fun _ _ => True) past := by
  by_cases leads : leadership.isLeader = true
  · simpa only [asLeader, requireLeader, leads, ↓reduceIte] using h leads
  · simp only [asLeader, requireLeader, leads]
    trivial

private theorem withObject_allowed {tenantId cacheKey : String} {handler : TenantId → CacheKey → Handler MasterResponse}
    (h : ∀ tenant key, (handler tenant key).Meets (fun _ => Allowed leadership) (fun _ _ => True) past) :
    (withObject tenantId cacheKey handler).Meets (fun _ => Allowed leadership) (fun _ _ => True) past := by
  unfold withObject
  split
  · trivial
  · split
    · trivial
    · exact h _ _

theorem handle_allowed (leadership : LeadershipState) {request : MasterRequest} (words : request.Words) :
    (request.handle leadership).Meets (fun _ => Allowed leadership) (fun _ _ => True) [] := by
  cases request with
  | getReplicaList query =>
    refine withObject_allowed fun tenant key => ⟨⟨trivial, .inr ⟨tenant, key, rfl⟩⟩, fun reply => ?_⟩
    cases reply <;> trivial
  | putStart body =>
    exact asLeader_allowed fun leads => withObject_allowed fun tenant key =>
      ⟨⟨words, .inl leads⟩, fun reply => acknowledge_allowed leads reply _⟩
  | putEnd body | putRevoke body | removeObject body =>
    exact asLeader_allowed fun leads => withObject_allowed fun tenant key =>
      ⟨⟨trivial, .inl leads⟩, fun reply => acknowledge_allowed leads reply _⟩
  | setTenantQuota body =>
    exact asLeader_allowed fun leads => ⟨⟨words, .inl leads⟩, fun reply => acknowledge_allowed leads reply _⟩
  | mountSegment body =>
    refine asLeader_allowed fun leads => ⟨⟨words, .inl leads⟩, fun _ => ?_⟩
    show (acknowledge (.ok ()) fun () => .acknowledged).Meets _ _ _
    exact acknowledge_allowed leads _ _

end Handler

namespace Fleet
variable {P I : Type} {trace : List (Label P I)}

/-- A leader reserved the object, and committed it later if it is committed. -/
def Reserved (trace : List (Label P I)) (object : CacheObjectMeta) : Prop :=
  ∃ before after i leadership count, leadership.isLeader = true ∧
    trace = before ++ .serve i leadership
      ⟨.putStart object.tenantId object.cacheKey object.len count, .ok object.replicas⟩ :: after ∧
    (object.status = .committed → ∃ j other, other.isLeader = true ∧
      .serve j other ⟨.putEnd object.tenantId object.cacheKey, .ok ()⟩ ∈ after)

/-- A leader gave the tenant these limits. -/
def Limited (trace : List (Label P I)) (tenant : TenantId) (quota : TenantQuota) : Prop :=
  ∃ i leadership, leadership.isLeader = true ∧
    .serve i leadership ⟨.setTenantQuota tenant.value quota.dramBytes quota.ssdBytes, .ok ()⟩ ∈ trace

theorem Reserved.extend {object : CacheObjectMeta} (h : Reserved trace object) (label : Label P I) :
    Reserved (trace ++ [label]) object := by
  obtain ⟨before, after, i, leadership, count, leads, rfl, ended⟩ := h
  refine ⟨before, after ++ [label], i, leadership, count, leads, by simp, fun committed => ?_⟩
  obtain ⟨j, other, led, member⟩ := ended committed
  exact ⟨j, other, led, List.mem_append_left _ member⟩

theorem Reserved.uncommitted {object : CacheObjectMeta} {status : ObjectStatus} (h : Reserved trace object)
    (other : status ≠ .committed) : Reserved trace { object with status := status } := by
  obtain ⟨before, after, i, leadership, count, leads, rfl, _⟩ := h
  exact ⟨before, after, i, leadership, count, leads, rfl, fun same => absurd same other⟩

theorem Reserved.commit {object : CacheObjectMeta} {j : I} {leadership : LeadershipState} (h : Reserved trace object)
    (leads : leadership.isLeader = true) :
    Reserved (trace ++ [.serve j leadership ⟨.putEnd object.tenantId object.cacheKey, .ok ()⟩])
      { object with status := .committed } := by
  obtain ⟨before, after, i, other, count, led, rfl, _⟩ := h
  exact ⟨before, after ++ [.serve j leadership ⟨.putEnd object.tenantId object.cacheKey, .ok ()⟩], i, other, count, led,
    by simp, fun _ => ⟨j, leadership, leads, by simp⟩⟩

theorem Limited.extend {tenant : TenantId} {quota : TenantQuota} (h : Limited trace tenant quota) (label : Label P I) :
    Limited (trace ++ [label]) tenant quota := by
  obtain ⟨i, leadership, leads, member⟩ := h
  exact ⟨i, leadership, leads, List.mem_append_left _ member⟩

/-- All that a master holds has a history, and its numbers are words. -/
structure Accountable (trace : List (Label P I)) (s : MasterState) : Prop where
  objects : ∀ key object, s.objects.lookup key = some object →
    key = (object.tenantId, object.cacheKey) ∧ Reserved trace object ∧ object.Words
  quotas : ∀ tenant quota, s.quotas.lookup tenant = some quota → Limited trace tenant quota ∧ quota.Words
  evictions : s.evictionsTotal = 0
  segments : ∀ segment ∈ s.allocator.segments, segment.len ≤ wordMax

/-- So has all that a snapshot holds. -/
structure Traceable (trace : List (Label P I)) (snapshot : MasterMetadataSnapshot) : Prop where
  objects : ∀ object ∈ snapshot.objects, Reserved trace object ∧ object.Words
  quotas : ∀ entry ∈ snapshot.quotas, Limited trace entry.1 entry.2 ∧ entry.2.Words
  evictions : snapshot.evictionsTotal = 0

theorem Traceable.words {snapshot : MasterMetadataSnapshot} (h : Traceable trace snapshot) : snapshot.Words :=
  ⟨fun object member => (h.objects object member).2, fun entry member => (h.quotas entry member).2,
    h.evictions ▸ Nat.zero_le _⟩

theorem Traceable.extend {snapshot : MasterMetadataSnapshot} (h : Traceable trace snapshot) (label : Label P I) :
    Traceable (trace ++ [label]) snapshot :=
  ⟨fun object member => ⟨(h.objects object member).1.extend label, (h.objects object member).2⟩,
    fun entry member => ⟨(h.quotas entry member).1.extend label, (h.quotas entry member).2⟩, h.evictions⟩

namespace Accountable
variable {s s' : MasterState} {key : ObjectKey} {object : CacheObjectMeta}

theorem extend (h : Accountable trace s) (label : Label P I) : Accountable (trace ++ [label]) s :=
  ⟨fun key object found => (h.objects key object found).imp_right (.imp_left (·.extend label)),
    fun tenant quota found => (h.quotas tenant quota found).imp_left (·.extend label), h.evictions, h.segments⟩

theorem taken {snapshot : MasterMetadataSnapshot} (h : Accountable trace s) (snapshots : s.Snapshots snapshot) :
    Traceable trace snapshot := by
  obtain ⟨objects, quotas, ⟨sameObjects, sameQuotas⟩, rfl⟩ := snapshots
  refine ⟨fun object member => ?_, fun entry member => ?_, h.evictions⟩
  · obtain ⟨stored, listed, rfl⟩ := List.mem_map.mp member
    have held : stored ∈ s.objects.entries := sameObjects ▸ Multiset.mem_coe.mpr listed
    exact (h.objects stored.1 stored.2 (Finmap.lookup_eq_some_iff.mpr held)).2
  · obtain ⟨stored, listed, rfl⟩ := List.mem_map.mp member
    have held : stored ∈ s.quotas.entries := sameQuotas ▸ Multiset.mem_coe.mpr listed
    exact h.quotas stored.1 stored.2 (Finmap.lookup_eq_some_iff.mpr held)

private theorem new_accountable : Accountable trace .new :=
  ⟨by simp [MasterState.new], by simp [MasterState.new], rfl, by simp [MasterState.new]⟩

private theorem mounted (h : Accountable trace s) (nodeId : String) {len : Nat} (word : len ≤ wordMax) :
    Accountable trace (s.mountSegment nodeId len) := by
  refine ⟨h.objects, h.quotas, h.evictions, fun segment member => ?_⟩
  rcases List.mem_append.mp member with old | added
  · exact h.segments segment old
  · exact List.mem_singleton.mp added ▸ word

private theorem stored (h : Accountable trace s) (key : ObjectKey) (object : CacheObjectMeta)
    (own : key = (object.tenantId, object.cacheKey)) (reserved : Reserved trace object) (words : object.Words) :
    Accountable trace { s with objects := s.objects.insert key object } := by
  refine ⟨fun other found held => ?_, h.quotas, h.evictions, h.segments⟩
  rcases eq_or_ne other key with rfl | hne
  · rw [Finmap.lookup_insert, Option.some.injEq] at held
    exact held ▸ ⟨own, reserved, words⟩
  · rw [Finmap.lookup_insert_of_ne _ hne] at held
    exact h.objects other found held

private theorem erased (h : Accountable trace s) (key : ObjectKey) :
    Accountable trace { s with objects := s.objects.erase key } := by
  refine ⟨fun other found held => ?_, h.quotas, h.evictions, h.segments⟩
  rcases eq_or_ne other key with rfl | hne
  · simp at held
  · exact h.objects other found (by simpa [hne] using held)

private theorem limited (h : Accountable trace s) {tenant : TenantId} {quota : TenantQuota}
    (has : Limited trace tenant quota ∧ quota.Words) :
    Accountable trace { s with quotas := s.quotas.insert tenant quota } := by
  refine ⟨h.objects, fun other found held => ?_, h.evictions, h.segments⟩
  rcases eq_or_ne other tenant with rfl | hne
  · rw [Finmap.lookup_insert, Option.some.injEq] at held
    exact held ▸ has
  · rw [Finmap.lookup_insert_of_ne _ hne] at held
    exact h.quotas other found held

/-- What a tenant uses may change, within a word. -/
private theorem used (h : Accountable trace s) {tenant : TenantId} {quota : TenantQuota}
    (found : s.quotas.lookup tenant = some quota) {bytes : Nat} (word : bytes ≤ wordMax) :
    Accountable trace { s with quotas := s.quotas.insert tenant { quota with usedDramBytes := bytes } } := by
  obtain ⟨⟨i, leadership, leads, member⟩, words⟩ := h.quotas tenant quota found
  exact h.limited ⟨⟨i, leadership, leads, member⟩, words.dram, words.ssd, word, words.usedSsd⟩

private theorem reserved (h : Accountable trace s) {tenant : TenantId} {bytes : Nat} {after : MasterState}
    (reserve : s.reserveTenantQuota tenant bytes = .ok after) : Accountable trace after := by
  rcases MasterState.reserveTenantQuota_cases reserve with ⟨_, rfl⟩ | ⟨quota, found, word, _, rfl⟩
  · exact h
  · exact h.used found word

private theorem released (h : Accountable trace s) (tenant : TenantId) (bytes : Nat) :
    Accountable trace (s.releaseTenantQuota tenant bytes) := by
  unfold MasterState.releaseTenantQuota
  split
  · exact h
  · rename_i quota found
    exact h.used found ((Nat.sub_le _ _).trans (h.quotas tenant quota found).2.usedDram)

private theorem retired (h : Accountable trace s) (found : s.objects.lookup key = some object) {status : ObjectStatus}
    (other : status ≠ .committed) : Accountable trace (s.retire key object status) := by
  obtain ⟨own, reserved, words⟩ := h.objects key object found
  have marked := h.stored key { object with status := status } own (reserved.uncommitted other)
    ⟨words.len, words.replicas, words.pin⟩
  have done := marked.released key.1 (quotaReservedBytes object)
  exact ⟨done.objects, done.quotas, done.evictions, done.segments⟩

/-- The extents of an allocation are words. -/
private theorem replicas_words {before after : List MountedSegment} {len : Nat} {indexes : List Nat}
    {allocations : List SegmentAllocation} (spec : SegmentAllocator.Allocated before after len indexes allocations)
    (word : len ≤ wordMax) {replica : ReplicaDescriptor} (member : replica ∈ allocations.map MasterState.replicaOf) :
    replica.offset ≤ wordMax ∧ replica.len ≤ wordMax := by
  obtain ⟨allocation, listed, rfl⟩ := List.mem_map.mp member
  obtain ⟨i, within, rfl⟩ := List.getElem_of_mem listed
  obtain ⟨_, segment, _, _, fit, same⟩ := spec.extent_at (List.getElem?_eq_getElem within)
  have fits := (MountedSegment.canFit_iff.mp fit).1
  rw [same]
  exact ⟨by simp only [MasterState.replicaOf]; omega, word⟩

/-- One call under the lock of a master, made by a handler that may make it. -/
theorem served (h : Accountable trace s) (i : I) {leadership : LeadershipState} {call : MasterCall} {reply : call.Reply}
    (serves : s.Serves call reply s') (allowed : Handler.Allowed leadership call) :
    Accountable (trace ++ [.serve i leadership ⟨call, reply⟩]) s' := by
  have leads (other : ∀ tenant key, call ≠ .getReplicaList tenant key) : leadership.isLeader = true :=
    allowed.2.resolve_right fun ⟨tenant, key, same⟩ => other tenant key same
  have later := h.extend (.serve i leadership ⟨call, reply⟩)
  cases call with
  | putStart tenant key len replicaCount =>
    rcases MasterState.putStart_cases s tenant key len replicaCount with
      ⟨err, he⟩ | ⟨after, allocations, segments, indexes, _, reserve, _, _, _, _, spec, he⟩ <;>
      cases (show (reply, s') = _ from serves).trans he
    · exact later
    · have kept := later.reserved reserve
      have same : after.objects = s.objects := by rw [MasterState.reserveTenantQuota_frame reserve]
      have added := kept.stored (tenant, key)
        ⟨tenant, key, len, .reserving, allocations.map MasterState.replicaOf, false, none⟩ rfl
        ⟨trace, [], i, leadership, replicaCount, leads nofun, rfl, nofun⟩
        ⟨allowed.1, fun replica member => replicas_words spec allowed.1 member, nofun⟩
      rw [same] at added
      refine ⟨added.objects, added.quotas, added.evictions, fun segment member => ?_⟩
      obtain ⟨index, within, rfl⟩ := List.getElem_of_mem member
      obtain ⟨old, held, _, length, _⟩ := spec.after_cases (List.getElem?_eq_getElem within)
      rw [length]
      exact h.segments old (List.mem_of_getElem? held)
  | putEnd tenant key =>
    rcases MasterState.putEnd_cases s tenant key with ⟨err, he⟩ | ⟨object, found, _, he⟩ <;>
      cases (show (reply, s') = _ from serves).trans he
    · exact later
    · obtain ⟨own, reserved, words⟩ := h.objects _ object found
      cases own
      exact later.stored _ _ rfl (reserved.commit (leads nofun)) ⟨words.len, words.replicas, words.pin⟩
  | putRevoke tenant key =>
    rcases MasterState.putRevoke_cases s tenant key with ⟨_, he⟩ | ⟨object, found, he⟩ <;>
      cases (show (reply, s') = _ from serves).trans he
    · exact later
    · exact later.retired found (by simp)
  | getReplicaList tenant key =>
    obtain ⟨nowMs, serves⟩ := serves
    rcases MasterState.getReplicaList_cases s tenant key nowMs with he | ⟨_, _, _, _, _, _, he⟩ <;>
      cases serves.trans he
    · exact later
    · exact ⟨later.objects, later.quotas, later.evictions, later.segments⟩
  | remove tenant key =>
    have after : s' = (s.remove tenant key).2 := congrArg Prod.snd (show (reply, s') = _ from serves)
    rcases MasterState.remove_cases s tenant key with ⟨_, he⟩ | ⟨object, _, _, leases, he⟩ <;> rw [he] at after <;>
      subst after
    · exact later
    · have done := (later.erased (tenant, key)).released tenant (quotaReservedBytes object)
      exact ⟨done.objects, done.quotas, done.evictions, done.segments⟩
  | setTenantQuota tenantId dramBytes ssdBytes =>
    rcases MasterState.setTenantQuota_cases s tenantId dramBytes ssdBytes with ⟨err, he⟩ | he <;>
      cases (show (reply, s') = _ from serves).trans he
    · exact later
    · refine later.limited ⟨⟨i, leadership, leads nofun, by simp [TenantQuota.withUsage]⟩, allowed.1.1, allowed.1.2, ?_,
        Nat.zero_le _⟩
      simp only [TenantQuota.withUsage, Table.saturatingTotal_eq]
      omega
  | mountSegment nodeId len =>
    cases (show s' = _ from serves)
    exact later.mounted nodeId allowed.1
  | metadataSnapshot =>
    cases serves.2
    exact later
  | save snapshot => exact serves.elim
  | resume =>
    cases (show s' = _ from serves)
    exact later

end Accountable

theorem Traceable.restored {snapshot : MasterMetadataSnapshot} (h : Traceable trace snapshot) :
    Accountable trace (.fromMetadataSnapshot snapshot) := by
  refine ⟨fun key object found => ?_, fun tenant quota found => ?_, h.evictions, by simp [MasterState.fromMetadataSnapshot]⟩
  · obtain ⟨_, listed, same⟩ := List.mem_map.mp (Table.mem_of_lookup_collect found)
    cases same
    exact ⟨rfl, h.objects _ listed⟩
  · exact h.quotas (tenant, quota) (Table.mem_of_lookup_collect found)

theorem loaded_accountable {snapshot : Option MasterMetadataSnapshot}
    (traceable : ∀ found ∈ snapshot, Traceable trace found) : Accountable trace (loadedMaster snapshot) := by
  cases snapshot with
  | none => exact Accountable.new_accountable.mounted _ (by decide)
  | some found => exact (traceable found rfl).restored.mounted _ (by decide)

theorem lastSaved_sent {snapshot : MasterMetadataSnapshot} (last : lastSaved trace = some snapshot) :
    (∃ i reply, .save i snapshot reply ∈ trace) ∨ ∃ i, .land i snapshot ∈ trace := by
  induction trace using List.reverseRecOn with
  | nil => cases last
  | append_singleton trace label ih =>
    have earlier (h : lastSaved trace = some snapshot) :
        (∃ i reply, .save i snapshot reply ∈ trace ++ [label]) ∨ ∃ i, .land i snapshot ∈ trace ++ [label] :=
      (ih h).imp (fun ⟨i, reply, member⟩ => ⟨i, reply, List.mem_append_left _ member⟩)
        fun ⟨i, member⟩ => ⟨i, List.mem_append_left _ member⟩
    rw [lastSaved_snoc] at last
    cases label with
    | save i saved reply =>
      cases reply with
      | ok =>
        cases last
        exact .inl ⟨i, .ok (), by simp⟩
      | error => exact earlier last
    | land i saved =>
      cases last
      exact .inr ⟨i, by simp⟩
    | _ => exact earlier last

open EtcdMetadataStore

section
variable [JsonWriter] [JsonReader]

/-- Whatever the run saved reads back from its JSON text, as texts of words do. -/
def Written (trace : List (Label P I)) : Prop := ∀ snapshot : MasterMetadataSnapshot, snapshot.Words →
  ((∃ i reply, .save i snapshot reply ∈ trace) ∨ ∃ i, .land i snapshot ∈ trace) → RoundTrips snapshot.toValue

/-- What is known of all processes, all requests and etcd. -/
structure Known (codec : EtcdCodec) (trace : List (Label P I)) (s : Fleet P I) : Prop where
  running : ∀ p leadership master, s.processes p = .running leadership master → Accountable trace master
  loading : ∀ p leadership response, s.processes p = .loading leadership (.ok response) →
    ∃ snapshot, load codec (.ok response) = .ok snapshot ∧ ∀ found ∈ snapshot, Traceable trace found
  etcd : s.etcd.lookup (codec.etcdB64 metadataKey) = (lastSaved trace).map (savedValue codec)
  saved : ∀ snapshot ∈ lastSaved trace, Traceable trace snapshot
  handled : ∀ i p leadership past rest, (s.requests i).stage = .handled p leadership past rest →
    rest.Meets (fun past call => Handler.Ordered past call ∧ Handler.Allowed leadership call) (fun _ _ => True) past ∧
      ∀ snapshot, ⟨.metadataSnapshot, snapshot⟩ ∈ past → Traceable trace snapshot
  flying : ∀ i snapshot, (s.requests i).flying = some snapshot → Traceable trace snapshot

variable {codec : EtcdCodec} {asked : I → MasterRequest} {s s' : Fleet P I}

/-- A save is of a snapshot that the handler has taken. -/
theorem Known.saving (h : Known codec trace s) {i : I} {p : P} {leadership : LeadershipState} {past : List MasterEvent}
    {snapshot : MasterMetadataSnapshot} {next : Except String Unit → Handler MasterResponse}
    (pending : (s.requests i).stage = .handled p leadership past (.call (.save snapshot) next)) :
    Traceable trace snapshot := by
  obtain ⟨⟨⟨ordered, _⟩, _⟩, taken⟩ := h.handled i p leadership past _ pending
  obtain ⟨first, rfl, _⟩ := ordered
  exact taken snapshot (by simp)

theorem Known.tells (h : Known codec trace s) (roundTrips : codec.RoundTrips) (written : Written trace) :
    load codec (.ok (stored codec s.etcd)) = .ok (lastSaved trace) := by
  cases last : lastSaved trace with
  | none => exact load_absent (by simpa [last] using h.etcd)
  | some snapshot =>
    have trips := written snapshot (h.saved snapshot last).words (lastSaved_sent last)
    exact load_saved roundTrips trips (by simpa [last] using h.etcd)

theorem Known.extend (h : Known codec trace s) {label : Label P I}
    (same : lastSaved (trace ++ [label]) = lastSaved trace) : Known codec (trace ++ [label]) s where
  running p leadership master found := (h.running p leadership master found).extend label
  loading p leadership response found := by
    obtain ⟨snapshot, loads, traceable⟩ := h.loading p leadership response found
    exact ⟨snapshot, loads, fun snapshot member => (traceable snapshot member).extend label⟩
  etcd := by rw [same, h.etcd]
  saved snapshot last := (h.saved snapshot (same ▸ last)).extend label
  handled i p leadership past rest found := by
    obtain ⟨meets, taken⟩ := h.handled i p leadership past rest found
    exact ⟨meets, fun snapshot member => (taken snapshot member).extend label⟩
  flying i snapshot found := (h.flying i snapshot found).extend label

/-- A save arrives. -/
theorem Known.put (h : Known codec trace s) {label : Label P I} {snapshot : MasterMetadataSnapshot}
    (traceable : Traceable trace snapshot) (last : lastSaved (trace ++ [label]) = some snapshot) :
    Known codec (trace ++ [label]) { s with etcd := put codec snapshot s.etcd } where
  running p leadership master found := (h.running p leadership master found).extend label
  loading p leadership response found := by
    obtain ⟨snapshot, loads, traceable⟩ := h.loading p leadership response found
    exact ⟨snapshot, loads, fun snapshot member => (traceable snapshot member).extend label⟩
  etcd := by rw [last, put_metadata]; rfl
  saved found member := by
    rw [last, Option.mem_def, Option.some.injEq] at member
    exact member ▸ traceable.extend label
  handled i p leadership past rest found := by
    obtain ⟨meets, taken⟩ := h.handled i p leadership past rest found
    exact ⟨meets, fun snapshot member => (taken snapshot member).extend label⟩
  flying i snapshot found := (h.flying i snapshot found).extend label

theorem Known.elected (h : Known codec trace s) {etcd : Etcd}
    (same : etcd.lookup (codec.etcdB64 metadataKey) = s.etcd.lookup (codec.etcdB64 metadataKey)) :
    Known codec trace { s with etcd := etcd } :=
  { h with etcd := same.trans h.etcd }

section
variable [DecidableEq P]

theorem Known.become (h : Known codec trace s) (p : P) (process : FleetProcess)
    (running : ∀ leadership master, process = .running leadership master → Accountable trace master)
    (loading : ∀ leadership response, process = .loading leadership (.ok response) →
      ∃ snapshot, load codec (.ok response) = .ok snapshot ∧ ∀ found ∈ snapshot, Traceable trace found) :
    Known codec trace (s.become p process) := by
  refine { h with running := fun q leadership master found => ?_, loading := fun q leadership response found => ?_ } <;>
    rcases eq_or_ne q p with rfl | hne
  · exact running leadership master (by simpa only [Fleet.become, Function.update_self] using found)
  · exact h.running q leadership master (by simpa only [Fleet.become, Function.update_of_ne hne] using found)
  · exact loading leadership response (by simpa only [Fleet.become, Function.update_self] using found)
  · exact h.loading q leadership response (by simpa only [Fleet.become, Function.update_of_ne hne] using found)

variable [DecidableEq I]

omit [DecidableEq P] in
theorem Known.goOn (h : Known codec trace s) (i : I) (request : FleetRequest P)
    (handled : ∀ p leadership past rest, request.stage = .handled p leadership past rest →
      rest.Meets (fun past call => Handler.Ordered past call ∧ Handler.Allowed leadership call) (fun _ _ => True) past ∧
        ∀ snapshot, ⟨.metadataSnapshot, snapshot⟩ ∈ past → Traceable trace snapshot)
    (flying : ∀ snapshot, request.flying = some snapshot → Traceable trace snapshot) :
    Known codec trace (s.goOn i request) := by
  refine { h with handled := fun j p leadership past rest found => ?_, flying := fun j snapshot found => ?_ } <;>
    rcases eq_or_ne j i with rfl | hne
  · exact handled p leadership past rest (by simpa only [Fleet.goOn, Function.update_self] using found)
  · exact h.handled j p leadership past rest (by simpa only [Fleet.goOn, Function.update_of_ne hne] using found)
  · exact flying snapshot (by simpa only [Fleet.goOn, Function.update_self] using found)
  · exact h.flying j snapshot (by simpa only [Fleet.goOn, Function.update_of_ne hne] using found)

omit [DecidableEq I] in
/-- A process that stops takes its requests with it. -/
theorem Known.stop (h : Known codec trace s) (p : P) : Known codec trace
    { s with processes := Function.update s.processes p .stopped, requests := fun i => drop p (s.requests i) } := by
  have stopped := h.become p .stopped nofun nofun
  refine { stopped with handled := fun i q leadership past rest found => ?_, flying := fun i snapshot found => ?_ }
  · simp only [drop] at found
    split at found
    · split at found
      · cases found
      · exact h.handled i q leadership past rest found
    · exact h.handled i q leadership past rest found
  · simp only [drop] at found
    split at found
    · rename_i q leadership past rest pending
      split at found
      · rcases Option.or_eq_some_iff.mp found with sent | ⟨_, earlier⟩
        · unfold Handler.saving at sent
          split at sent
          · cases sent
            exact h.saving pending
          · cases sent
        · exact h.flying i snapshot earlier
      · exact h.flying i snapshot found
    · exact h.flying i snapshot found

theorem Step.known (roundTrips : codec.RoundTrips) (words : ∀ i, (asked i).Words) {label : Label P I}
    (step : Step codec asked s label s') (written : Written trace) (h : Known codec trace s) :
    Known codec (trace ++ [label]) s' := by
  have unsent (same : lastSaved (trace ++ [label]) = lastSaved trace) : Known codec (trace ++ [label]) s :=
    h.extend same
  cases step with
  | start bindAddr _ | decide _ _ => exact (unsent (lastSaved_snoc _ _)).become _ _ nofun nofun
  | @elect p bindAddr _ =>
    exact ((unsent (lastSaved_snoc _ _)).elected (commit_metadata roundTrips bindAddr)).become p _ nofun nofun
  | @lose p bindAddr failure committed _ =>
    refine ((unsent (lastSaved_snoc _ _)).elected ?_).become p _ nofun nofun
    split
    · exact commit_metadata roundTrips bindAddr
    · rfl
  | @range p leadership _ =>
    refine (unsent (lastSaved_snoc _ _)).become p _ nofun fun _ response same => ?_
    cases same
    exact ⟨lastSaved trace, h.tells roundTrips written, fun found member => (h.saved found member).extend _⟩
  | unread failure _ => exact (unsent (lastSaved_snoc _ _)).become _ _ nofun fun _ _ same => by cases same
  | @load p leadership reply snapshot loading loads =>
    refine (unsent (lastSaved_snoc _ _)).become p _ (fun _ master same => ?_) nofun
    cases same
    cases reply with
    | error failure => cases failure <;> cases loads
    | ok response =>
      obtain ⟨found, told, traceable⟩ := h.loading p leadership response loading
      cases told.symm.trans loads
      exact loaded_accountable fun found member => (traceable found member).extend _
  | @accept i p leadership master _ _ =>
    refine (unsent (lastSaved_snoc _ _)).goOn i _ ?_ nofun
    rintro _ _ _ _ ⟨⟩
    exact ⟨((Handler.handle_meets leadership (asked i)).and (Handler.handle_allowed leadership (words i))).mono
      (fun _ _ => id) fun _ _ _ => trivial, by simp⟩
  | @serve i p leadership master master' past call reply next pending running serves =>
    obtain ⟨⟨allowed, meets⟩, taken⟩ := h.handled i p leadership past _ pending
    have known := h.running p leadership master running
    have later := known.served i serves allowed.2
    refine ((unsent (lastSaved_snoc _ _)).become p _ ?_ fun _ _ same => by cases same).goOn i _ ?_
      fun snapshot flying => (h.flying i snapshot flying).extend _
    · rintro _ _ ⟨⟩
      exact later
    · rintro _ _ _ _ ⟨⟩
      refine ⟨meets reply, fun snapshot member => ?_⟩
      rcases List.mem_append.mp member with old | last
      · exact (taken snapshot old).extend _
      · cases List.mem_singleton.mp last
        exact (known.taken serves.1).extend _
  | @saved i p leadership past snapshot next pending =>
    have traceable := h.saving pending
    obtain ⟨⟨_, meets⟩, taken⟩ := h.handled i p leadership past _ pending
    refine (h.put traceable (lastSaved_snoc _ _)).goOn i _ ?_ fun snapshot flying => (h.flying i snapshot flying).extend _
    rintro _ _ _ _ ⟨⟩
    refine ⟨meets _, fun snapshot member => ?_⟩
    rcases List.mem_append.mp member with old | last
    · exact (taken snapshot old).extend _
    · cases List.mem_singleton.mp last
  | @unsaved i p leadership past snapshot next error pending =>
    have traceable := h.saving pending
    obtain ⟨⟨_, meets⟩, taken⟩ := h.handled i p leadership past _ pending
    refine (unsent (lastSaved_snoc _ _)).goOn i _ ?_ ?_
    · rintro _ _ _ _ ⟨⟩
      refine ⟨meets _, fun snapshot member => ?_⟩
      rcases List.mem_append.mp member with old | last
      · exact (taken snapshot old).extend _
      · cases List.mem_singleton.mp last
    · rintro _ ⟨⟩
      exact traceable.extend _
  | @land i snapshot flying =>
    refine (h.put (h.flying i snapshot flying) (lastSaved_snoc _ _)).goOn i _ (fun p leadership past rest found => ?_) nofun
    obtain ⟨meets, taken⟩ := h.handled i p leadership past rest found
    exact ⟨meets, fun snapshot member => (taken snapshot member).extend _⟩
  | stop p => exact (unsent (lastSaved_snoc _ _)).stop p

theorem run_known (roundTrips : codec.RoundTrips) (words : ∀ i, (asked i).Words)
    (run : Run (Step codec asked) initial trace s) (written : Written trace) : Known codec trace s := by
  refine run.invariant (P := fun trace s => Written trace → Known codec trace s) (fun _ => ?_) ?_ written
  · constructor <;> simp [initial, lastSaved]
  · intro trace s label s' _ ih step written
    have before : Written trace := fun snapshot words sent => written snapshot words <| sent.imp
      (Exists.imp fun _ => Exists.imp fun _ => List.mem_append_left _) (Exists.imp fun _ => List.mem_append_left _)
    exact step.known roundTrips words before (ih before)

/-- Whatever masters start, stop and save on one etcd, a load finds the snapshot that reached it last, and no
master that starts is refused by what it read. -/
theorem load_tells_last_save (roundTrips : codec.RoundTrips) (words : ∀ i, (asked i).Words)
    (run : Run (Step codec asked) initial trace s) (written : Written trace) :
    load codec (.ok (stored codec s.etcd)) = .ok (lastSaved trace) ∧
      ∀ p leadership response, s.processes p = .loading leadership (.ok response) →
        ∃ snapshot, load codec (.ok response) = .ok snapshot := by
  have known := run_known roundTrips words run written
  refine ⟨known.tells roundTrips written, fun p leadership response loading => ?_⟩
  obtain ⟨snapshot, loads, _⟩ := known.loading p leadership response loading
  exact ⟨snapshot, loads⟩

/-- A running master, started any number of restarts later, holds an object only under its own key and only if a
leader reserved it with these replicas, holds it committed only if a leader committed it after that, and limits a
tenant only as a leader was told to. -/
theorem metadata_has_history (roundTrips : codec.RoundTrips) (words : ∀ i, (asked i).Words)
    (run : Run (Step codec asked) initial trace s) (written : Written trace) {p : P} {leadership : LeadershipState}
    {master : MasterState} (running : s.processes p = .running leadership master) :
    (∀ key object, master.objects.lookup key = some object →
      key = (object.tenantId, object.cacheKey) ∧ Reserved trace object) ∧
    (∀ tenant quota, master.quotas.lookup tenant = some quota → Limited trace tenant quota) := by
  have known := (run_known roundTrips words run written).running p leadership master running
  refine ⟨fun key object found => ?_, fun tenant quota found => (known.quotas tenant quota found).1⟩
  obtain ⟨own, reserved, _⟩ := known.objects key object found
  exact ⟨own, reserved⟩

end

end

private def reservedObject : CacheObjectMeta :=
  ⟨⟨"tenant-a"⟩, ⟨"aaaaaaaaaaaaaaaaaaaaaaaaaaaaaaaaaaaaaaaaaaaaaaaaaaaaaaaaaaaaaaaa"⟩, 4, .reserving, [⟨"default", 0, 4⟩],
    false, none⟩

private def reservedSnapshot : MasterMetadataSnapshot := ⟨[reservedObject], [], 0⟩

/-- The text of the saved reservation. -/
@[reducible] private def reservedTexts : JsonWriter where
  toVec _ := ("\x7b\"objects\":[\x7b\"tenant_id\":\"tenant-a\",\"cache_key\":" ++
    "\"aaaaaaaaaaaaaaaaaaaaaaaaaaaaaaaaaaaaaaaaaaaaaaaaaaaaaaaaaaaaaaaa\",\"len\":4,\"status\":\"Reserving\"," ++
    "\"replicas\":[\x7b\"node_id\":\"default\",\"offset\":0,\"len\":4\x7d],\"hard_pinned\":false," ++
    "\"soft_pinned_until_ms\":null\x7d],\"quotas\":[],\"evictions_total\":0\x7d").toUTF8.toList

@[reducible] private def reservedReader : JsonReader where
  fromSlice _ := .ok reservedSnapshot.toValue
  mismatch expected _ := "invalid type for " ++ expected

private def reservation : Unit → MasterRequest := fun _ => .putStart ⟨"tenant-a", reservedObject.cacheKey.value, 4, 1⟩

private theorem reservation_handler : (reservation ()).handle (.leader "10.0.0.1:8081") =
    .call (.putStart reservedObject.tenantId reservedObject.cacheKey 4 1) fun result => Handler.acknowledge result
      fun replicas => ⟨200, .object [("replicas", .array (replicas.map ReplicaDescriptor.toValue))]⟩ := by
  have parsed : TenantId.parse "tenant-a" = .ok reservedObject.tenantId := by decide
  have decoded : CacheKey.fromHex reservedObject.cacheKey.value = .ok reservedObject.cacheKey := by decide
  simp only [reservation, MasterRequest.handle, Handler.putStart, Handler.asLeader, Handler.requireLeader,
    Handler.withObject, parsed, decoded]
  rfl

private theorem reservation_words (i : Unit) : (reservation i).Words := show 4 ≤ wordMax by decide

private abbrev ReservationStep := @Step Unit Unit _ _ reservedTexts reservedReader Masters.standardCodec reservation

/-- A master reserves an object, saves it and stops, and starts again. -/
private theorem restart_run : ∃ trace s, Run ReservationStep initial trace s ∧
    @Written Unit Unit reservedTexts reservedReader trace ∧
    s.processes () = .running (.leader "10.0.0.1:8081") (loadedMaster (some reservedSnapshot)) ∧
    lastSaved trace = some reservedSnapshot := by
  let _ := reservedTexts
  let _ := reservedReader
  have idle : Run ReservationStep initial [] _ := .start
  have up := idle.snoc (.start (p := ()) "10.0.0.1:8081" rfl) |>.snoc (.elect (p := ()) rfl)
    |>.snoc (.decide (p := ()) rfl (show electLeader _ _ _ = .ok (.leader "10.0.0.1:8081") from rfl))
    |>.snoc (.range (p := ()) rfl) |>.snoc (.load (p := ()) rfl (show load _ _ = .ok none from rfl))
  have saved := up.snoc (.accept (i := ()) (p := ()) rfl rfl)
    |>.snoc (.serve (i := ()) (congrArg (Stage.handled () _ []) reservation_handler) rfl rfl)
    |>.snoc (.serve (i := ()) rfl rfl (show MasterState.Serves _ .metadataSnapshot reservedSnapshot _ from
      ⟨⟨[⟨_, reservedObject⟩], [], ⟨rfl, rfl⟩, rfl⟩, rfl⟩))
    |>.snoc (.saved (i := ()) rfl)
  have elected : electLeader Masters.standardCodec "10.0.0.1:8081" (.ok ⟨false, [⟨some ⟨[⟨
      Masters.standardCodec.etcdB64 "10.0.0.1:8081"⟩]⟩⟩]⟩) = .ok (.leader "10.0.0.1:8081") := by
    simp only [electLeader, List.findSome?_cons, Option.bind_some, List.head?_cons,
      EtcdCodec.etcdDecodeUtf8_b64 Masters.standardCodec_roundTrips]
    rfl
  have again := saved.snoc (.stop ()) |>.snoc (.start (p := ()) "10.0.0.1:8081" rfl) |>.snoc (.elect (p := ()) rfl)
    |>.snoc (.decide (p := ()) rfl elected) |>.snoc (.range (p := ()) rfl)
  have trips : RoundTrips reservedSnapshot.toValue := ⟨_, rfl, reservedSnapshot.readsBack.formed,
    .refl reservedSnapshot.readsBack.formed⟩
  refine ⟨_, _, again.snoc (.load (p := ()) rfl (load_saved Masters.standardCodec_roundTrips trips rfl)), ?_, rfl, rfl⟩
  rintro snapshot _ (⟨_, _, sent⟩ | ⟨_, sent⟩)
  · simp only [List.mem_append, List.mem_singleton, List.not_mem_nil, reduceCtorEq, Label.save.injEq, false_or, or_false,
      true_and] at sent
    exact sent.1 ▸ trips
  · simp at sent

/-- The master that starts again reads the reservation. -/
theorem restart_loads_reservation : ∃ s : Fleet Unit Unit,
    @load reservedReader Masters.standardCodec (.ok (stored Masters.standardCodec s.etcd)) = .ok (some reservedSnapshot) := by
  let _ := reservedTexts
  let _ := reservedReader
  obtain ⟨trace, s, run, written, _, last⟩ := restart_run
  have told := (load_tells_last_save Masters.standardCodec_roundTrips reservation_words run written).1
  exact ⟨s, told.trans (congrArg _ last)⟩

/-- It holds the reservation that the leader before it made. -/
theorem restart_keeps_reservation : ∃ (trace : List (Label Unit Unit)) (s : Fleet Unit Unit) (master : MasterState),
    s.processes () = .running (.leader "10.0.0.1:8081") master ∧
    master.objects.lookup (reservedObject.tenantId, reservedObject.cacheKey) = some reservedObject ∧
    Reserved trace reservedObject := by
  let _ := reservedTexts
  let _ := reservedReader
  obtain ⟨trace, s, run, written, running, _⟩ := restart_run
  have history := metadata_has_history Masters.standardCodec_roundTrips reservation_words run written running
  have found : (loadedMaster (some reservedSnapshot)).objects.lookup (reservedObject.tenantId, reservedObject.cacheKey) =
    some reservedObject := by decide
  exact ⟨trace, s, _, running, found, (history.1 _ _ found).2⟩

end Fleet
end Mooncache
