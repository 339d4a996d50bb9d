import Mooncache.Master.Durability

/-! Whether the masters of a cluster answer reads alike. A standby reads from the metadata
it loaded once, while the leader goes on. -/
namespace Mooncache
open Program

namespace MasterState

theorem loadedMaster_keyed (persisted : Option MasterMetadataSnapshot) : (loadedMaster persisted).Keyed := by
  cases persisted with
  | none => exact new_keyed
  | some snapshot => exact fromMetadataSnapshot_keyed snapshot

/-- What the first state has committed under the key the second has, with the same replicas. -/
def Agrees (key : ObjectKey) (s leader : MasterState) : Prop :=
  ∀ object, s.objects.lookup key = some object → object.status = .committed →
    ∃ current, leader.objects.lookup key = some current ∧ current.status = .committed ∧
      current.replicas = object.replicas

theorem Agrees.of_objects {key : ObjectKey} {s s' leader : MasterState} (h : Agrees key s leader)
    (same : s'.objects = s.objects) : Agrees key s' leader := by
  rw [Agrees, same]
  exact h

/-- A committed object stays until it is revoked or removed. -/
theorem Serves.committed_stays {s s' : MasterState} {event : MasterEvent} {key : ObjectKey}
    {object : CacheObjectMeta} (served : s.Serves event.request event.reply s') (goes_on : ¬ event.Ends key)
    (found : s.objects.lookup key = some object) (committed : object.status = .committed) :
    s'.objects.lookup key = some object := by
  rcases served.effect with ⟨_, same⟩ | ⟨_, same | ⟨other, written, uncommitted, he⟩ | ⟨other, ends, he⟩⟩
  · rw [same.objects, found]
  · rw [same, found]
  · have hne : key ≠ other := by
      rintro rfl
      exact uncommitted object found committed
    rw [he, Finmap.lookup_insert_of_ne _ hne, found]
  · have hne : key ≠ other := by
      rintro rfl
      exact goes_on ends
    rcases he with he | ⟨retired, he⟩
    · rw [he, Finmap.lookup_erase_ne hne, found]
    · rw [he, Finmap.lookup_insert_of_ne _ hne, found]

end MasterState

/-- The response lists the replicas of the object that is committed under the query's key. -/
def ListsCommitted (s : MasterState) (query : ReplicaListQuery) (response : MasterResponse) : Prop :=
  ∃ tenant key list object, TenantId.parse query.tenantId = .ok tenant ∧ CacheKey.fromHex query.cacheKey = .ok key ∧
    response.body = ReplicaList.toValue list ∧ s.objects.lookup (tenant, key) = some object ∧
    object.status = .committed ∧ list.replicas = object.replicas

namespace Handler

private theorem ofError_status (err : CacheError) : (MasterResponse.ofError err).status ≠ 200 := by
  cases err <;> simp [MasterResponse.ofError, MasterResponse.error, MasterResponse.statusOf]

/-- A read makes one call, and is answered with 200 from the list it found. -/
theorem getReplicaList_meets (query : ReplicaListQuery) : (getReplicaList query).Meets
    (fun past call => past = [] ∧ ∃ tenant key, TenantId.parse query.tenantId = .ok tenant ∧
      CacheKey.fromHex query.cacheKey = .ok key ∧ call = .getReplicaList tenant key)
    (fun past response => response.status = 200 → ∃ tenant key list, TenantId.parse query.tenantId = .ok tenant ∧
      CacheKey.fromHex query.cacheKey = .ok key ∧ past = [⟨.getReplicaList tenant key, .ok list⟩] ∧
      response.body = list.toValue) [] := by
  unfold getReplicaList withObject
  split
  · exact fun ok => absurd ok (ofError_status _)
  · rename_i tenant parsed
    split
    · exact fun ok => absurd ok (ofError_status _)
    · rename_i key decoded
      refine ⟨⟨rfl, tenant, key, parsed, decoded, rfl⟩, fun reply => ?_⟩
      cases reply with
      | ok list => exact fun _ => ⟨tenant, key, list, parsed, decoded, rfl, rfl⟩
      | error err => exact fun ok => absurd ok (ofError_status err)

/-- A standby refuses every request that would change its metadata. -/
private theorem standby_refuses {leadership : LeadershipState} (standby : leadership.isLeader = false)
    {s s' : MasterState} {handler : Handler MasterResponse} {response : MasterResponse}
    (ran : Finishes MasterState.Serves s (asLeader leadership handler) s' response) : s' = s := by
  simp only [asLeader, requireLeader, standby] at ran
  exact (finishes_done.mp ran).1

private theorem read_finishes {s s' : MasterState} {query : ReplicaListQuery} {response : MasterResponse}
    (ran : Finishes MasterState.Serves s (getReplicaList query) s' response) :
    s'.objects = s.objects ∧ (response.status = 200 → ListsCommitted s query response) := by
  unfold getReplicaList withObject at ran
  split at ran
  · obtain ⟨rfl, rfl⟩ := finishes_done.mp ran
    exact ⟨rfl, fun ok => absurd ok (ofError_status _)⟩
  · rename_i tenant parsed
    split at ran
    · obtain ⟨rfl, rfl⟩ := finishes_done.mp ran
      exact ⟨rfl, fun ok => absurd ok (ofError_status _)⟩
    · rename_i key decoded
      obtain ⟨reply, middle, ⟨nowMs, served⟩, rest⟩ := finishes_call.mp ran
      rcases MasterState.getReplicaList_cases s tenant key nowMs with he | ⟨object, lease, _, _, found, committed, he⟩
      · cases served.trans he
        obtain ⟨rfl, rfl⟩ := finishes_done.mp rest
        exact ⟨rfl, fun ok => absurd ok (ofError_status _)⟩
      · cases served.trans he
        obtain ⟨rfl, rfl⟩ := finishes_done.mp rest
        exact ⟨rfl, fun _ => ⟨tenant, key, _, object, parsed, decoded, rfl, found, committed, rfl⟩⟩

/-- A standby keeps its objects, whatever it is asked, and reads from them. -/
theorem standby_answers {leadership : LeadershipState} (standby : leadership.isLeader = false) {s s' : MasterState}
    {request : MasterRequest} {response : MasterResponse}
    (ran : Finishes MasterState.Serves s (request.handle leadership) s' response) :
    s'.objects = s.objects ∧
      ∀ query, request = .getReplicaList query → response.status = 200 → ListsCommitted s query response := by
  cases request with
  | getReplicaList query =>
    obtain ⟨same, reads⟩ := read_finishes ran
    refine ⟨same, ?_⟩
    rintro _ ⟨⟩
    exact reads
  | _ =>
    rw [standby_refuses standby ran]
    exact ⟨rfl, nofun⟩

end Handler

/-- Where a key has not been revoked or removed at the leader since it was copied: into the
snapshot of a request, into the store, into a standby. -/
structure Freshness (I J : Type) where
  taken : I → Bool
  stored : Bool
  loaded : J → Bool

namespace Freshness
variable {I J : Type} [DecidableEq I] [DecidableEq J]

def initial : Freshness I J := ⟨fun _ => false, true, fun _ => false⟩

def next (key : ObjectKey) (f : Freshness I J) :
    Pool.Label I (Cluster.Action J) MasterCall MasterCall.Reply → Freshness I J
  | .call i event =>
    match event with
    | ⟨.metadataSnapshot, _⟩ => { f with taken := Function.update f.taken i true }
    | ⟨.save _, .ok ()⟩ => { f with stored := f.taken i }
    | ⟨.save _, .error _⟩ => { f with stored := f.stored && f.taken i }
    | event => if MasterEvent.Ends key event then ⟨fun _ => false, false, fun _ => false⟩ else f
  | .act (.start j) => { f with loaded := Function.update f.loaded j f.stored }
  | .act (.answer _ _ _) => f

def along (key : ObjectKey) (trace : List (Pool.Label I (Cluster.Action J) MasterCall MasterCall.Reply)) :
    Freshness I J := trace.foldl (next key) initial

theorem along_snoc (key : ObjectKey) (trace : List (Pool.Label I (Cluster.Action J) MasterCall MasterCall.Reply))
    (label : Pool.Label I (Cluster.Action J) MasterCall MasterCall.Reply) :
    along key (trace ++ [label]) = (along key trace).next key label := by
  simp [along]

end Freshness

namespace MasterState

theorem Serves.keyed {s s' : MasterState} {call : MasterCall} {reply : call.Reply} (served : s.Serves call reply s')
    (h : s.Keyed) : s'.Keyed := by
  cases call with
  | putStart tenant key len replicaCount =>
    rw [show s' = _ from congrArg Prod.snd (show (reply, s') = _ from served)]
    exact apply_keyed h (.putStart tenant key len replicaCount)
  | putEnd tenant key =>
    rw [show s' = _ from congrArg Prod.snd (show (reply, s') = _ from served)]
    exact apply_keyed h (.putEnd tenant key)
  | putRevoke tenant key =>
    rw [show s' = _ from congrArg Prod.snd (show (reply, s') = _ from served)]
    exact apply_keyed h (.putRevoke tenant key)
  | getReplicaList tenant key =>
    obtain ⟨nowMs, served⟩ := served
    rw [show s' = _ from congrArg Prod.snd served]
    exact apply_keyed h (.getReplicaList tenant key nowMs)
  | remove tenant key =>
    rw [show s' = _ from congrArg Prod.snd (show (reply, s') = _ from served)]
    exact apply_keyed h (.remove tenant key)
  | setTenantQuota tenantId dramBytes ssdBytes =>
    rw [show s' = _ from congrArg Prod.snd (show (reply, s') = _ from served)]
    exact apply_keyed h (.setTenantQuota tenantId dramBytes ssdBytes)
  | mountSegment nodeId len =>
    rw [show s' = _ from served]
    exact h
  | metadataSnapshot =>
    rw [show s' = _ from served.2]
    exact h
  | save snapshot => exact served.elim
  | resume =>
    rw [show s' = _ from served]
    exact h

/-- What the leader committed and does not end stays agreed on. -/
theorem Agrees.serve {key : ObjectKey} {s leader leader' : MasterState} (h : Agrees key s leader) {event : MasterEvent}
    (served : leader.Serves event.request event.reply leader') (goes_on : ¬ event.Ends key) : Agrees key s leader' := by
  intro object found committed
  obtain ⟨current, present, status, same⟩ := h object found committed
  exact ⟨current, served.committed_stays goes_on present status, status, same⟩

/-- A snapshot loads as the objects it was taken from. -/
theorem Snapshots.agrees {s : MasterState} (keyed : s.Keyed) {snapshot : MasterMetadataSnapshot}
    (taken : s.Snapshots snapshot) (key : ObjectKey) : Agrees key (fromMetadataSnapshot snapshot) s := by
  obtain ⟨objects, quotas, enumerated, rfl⟩ := taken
  have same := restored_eq keyed enumerated
  intro object found committed
  rw [restored] at same
  rw [same] at found
  exact ⟨object, found, committed, rfl⟩

end MasterState

namespace Cluster
variable {I J : Type} [DecidableEq I] [DecidableEq J] {saves : Except String Unit → Prop}
  {leadership : LeadershipState} {requests : I → MasterRequest} {cluster : Cluster J}
  {trace : List (Pool.Label I (Action J) MasterCall MasterCall.Reply)} {s s' : ClusterPool I J}

/-- Every copy that is fresh agrees with the leader. -/
structure Tracks (key : ObjectKey) (f : Freshness I J) (s : ClusterPool I J) : Prop where
  keyed : s.world.leader.Keyed
  stored : f.stored = true → MasterState.Agrees key (loadedMaster s.world.persisted) s.world.leader
  taken : ∀ i snapshot, (i, ⟨.metadataSnapshot, snapshot⟩) ∈ s.history → f.taken i = true →
    MasterState.Agrees key (.fromMetadataSnapshot snapshot) s.world.leader
  loaded : ∀ j standby, s.world.standbys j = some standby → f.loaded j = true →
    MasterState.Agrees key standby s.world.leader

omit [DecidableEq J] in
theorem Serves.standbys {s s' : Cluster J} {call : MasterCall} {reply : call.Reply} (served : s.Serves saves call reply s') :
    s'.standbys = s.standbys := by
  cases call with
  | save snapshot => obtain ⟨_, rfl | ⟨_, rfl⟩⟩ := served <;> rfl
  | _ =>
    obtain ⟨_, _, rfl⟩ := served
    rfl

omit [DecidableEq I] [DecidableEq J] in
/-- An operation at the leader. -/
theorem Tracks.operate {key : ObjectKey} {f : Freshness I J} (h : Tracks key f s) {i : I} {event : MasterEvent}
    {world : Cluster J} {threads : I → Handler MasterResponse}
    (served : s.world.Serves saves event.request event.reply world)
    (other : ∀ snapshot, event.request ≠ .save snapshot) (taking : event.request ≠ .metadataSnapshot) :
    Tracks key (if event.Ends key then ⟨fun _ => false, false, fun _ => false⟩ else f)
      ⟨world, threads, s.history ++ [(i, event)]⟩ := by
  obtain ⟨locked, persisted⟩ := served.lock other
  have standbys := served.standbys
  split
  · exact ⟨locked.keyed h.keyed, nofun, nofun, nofun⟩
  · rename_i goes_on
    refine ⟨locked.keyed h.keyed, fun stored => ?_, fun j snapshot made taken => ?_, fun j standby present loaded => ?_⟩
    · rw [persisted]
      exact (h.stored stored).serve locked goes_on
    · rcases List.mem_append.mp made with old | final
      · exact (h.taken j snapshot old taken).serve locked goes_on
      · cases List.mem_singleton.mp final
        exact absurd rfl taking
    · rw [standbys] at present
      exact (h.loaded j standby present loaded).serve locked goes_on

omit [DecidableEq I] [DecidableEq J] in
/-- A save puts the snapshot of its request in the store, or fails. -/
theorem Tracks.save {key : ObjectKey} {f : Freshness I J} (h : Tracks key f s) {i : I}
    {snapshot : MasterMetadataSnapshot} {saved : Except String Unit} {world : Cluster J}
    {threads : I → Handler MasterResponse} (served : s.world.Serves saves (.save snapshot) saved world)
    (taken : (i, ⟨.metadataSnapshot, snapshot⟩) ∈ s.history) (stored : Bool)
    (kept : stored = true → f.taken i = true ∧ (saved ≠ .ok () → f.stored = true)) :
    Tracks key { f with stored := stored } ⟨world, threads, s.history ++ [(i, ⟨.save snapshot, saved⟩)]⟩ := by
  have old : ∀ j other, (j, (⟨.metadataSnapshot, other⟩ : MasterEvent)) ∈ s.history ++ [(i, ⟨.save snapshot, saved⟩)] →
      (j, ⟨.metadataSnapshot, other⟩) ∈ s.history := by
    simp
  obtain ⟨_, rfl | ⟨failed, rfl⟩⟩ := served
  · refine ⟨h.keyed, fun fresh other found committed => ?_, fun j other made => h.taken j other (old j other made),
      h.loaded⟩
    exact h.taken i snapshot taken (kept fresh).1 other found committed
  · exact ⟨h.keyed, fun fresh => h.stored ((kept fresh).2 failed), fun j other made => h.taken j other (old j other made),
      h.loaded⟩

omit [DecidableEq I] in
/-- A standby that starts loads what is stored. -/
theorem Tracks.start {key : ObjectKey} {f : Freshness I J} (h : Tracks key f s) {j : J} {world : Cluster J}
    (acted : s.world.Acts (.start j) world) :
    Tracks key { f with loaded := Function.update f.loaded j f.stored } { s with world := world } := by
  obtain ⟨_, rfl⟩ := acted
  refine ⟨h.keyed, h.stored, h.taken, fun i standby present fresh => ?_⟩
  rcases eq_or_ne i j with rfl | hne
  · simp only [Function.update_self, Option.some.injEq] at present fresh
    cases present
    exact h.stored fresh
  · simp only [Function.update_of_ne hne] at present fresh
    exact h.loaded i standby present fresh

omit [DecidableEq I] in
/-- A standby that answers keeps its objects. -/
theorem Tracks.answer {key : ObjectKey} {f : Freshness I J} (h : Tracks key f s) {j : J} {request : MasterRequest}
    {response : MasterResponse} {world : Cluster J} (acted : s.world.Acts (.answer j request response) world) :
    Tracks key f { s with world := world } := by
  obtain ⟨standby, standby', _, known, refuses, ran, rfl⟩ := acted
  refine ⟨h.keyed, h.stored, h.taken, fun i found present fresh => ?_⟩
  rcases eq_or_ne i j with rfl | hne
  · simp only [Function.update_self, Option.some.injEq] at present
    cases present
    exact (h.loaded i standby known fresh).of_objects (Handler.standby_answers refuses ran).1
  · simp only [Function.update_of_ne hne] at present
    exact h.loaded i found present fresh

omit [DecidableEq J] in
/-- A snapshot agrees with the leader it is taken from. -/
theorem Tracks.snapshot {key : ObjectKey} {f : Freshness I J} (h : Tracks key f s) {i : I}
    {snapshot : MasterMetadataSnapshot} {world : Cluster J} {threads : I → Handler MasterResponse}
    (served : s.world.Serves saves .metadataSnapshot snapshot world)
    (first : ∀ other, (i, ⟨.metadataSnapshot, other⟩) ∉ s.history) :
    Tracks key { f with taken := Function.update f.taken i true }
      ⟨world, threads, s.history ++ [(i, ⟨.metadataSnapshot, snapshot⟩)]⟩ := by
  obtain ⟨_, ⟨snapshots, rfl⟩, rfl⟩ := served
  refine ⟨h.keyed, h.stored, fun j other made fresh => ?_, h.loaded⟩
  rcases List.mem_append.mp made with old | final
  · rcases eq_or_ne j i with rfl | hne
    · exact absurd old (first other)
    · simp only [Function.update_of_ne hne] at fresh
      exact h.taken j other old fresh
  · cases List.mem_singleton.mp final
    exact snapshots.agrees h.keyed key

/-- Freshness is right in every run of a cluster whose leader started from the store. -/
theorem run_tracks (loaded : cluster.leader = loadedMaster cluster.persisted) (none : ∀ j, cluster.standbys j = none)
    (run : Run (Pool.Step (server saves)) (Pool.initial cluster (handlers leadership requests)) trace s)
    (key : ObjectKey) : Tracks key (Freshness.along key trace) s := by
  induction run with
  | start =>
    refine ⟨?_, fun _ => ?_, by simp [Pool.initial], by simp [Pool.initial, none]⟩
    · rw [Pool.initial, loaded]
      exact MasterState.loadedMaster_keyed cluster.persisted
    · intro object found committed
      exact ⟨object, by rw [Pool.initial, loaded]; exact found, committed, rfl⟩
  | @snoc trace s s' label past last ih =>
    rw [Freshness.along_snoc]
    generalize Freshness.along key trace = f at ih
    cases last with
    | @act action world acted =>
      cases action with
      | start j => exact ih.start acted
      | answer j request response => exact ih.answer acted
    | @call i request next reply world pending served =>
      have meets := Pool.run_meets (handlers_meets leadership requests i) past
      rw [pending] at meets
      have ordered := meets.1
      cases request with
      | metadataSnapshot =>
        obtain ⟨first, own, accepted⟩ := ordered
        have served : s.world.Serves saves .metadataSnapshot reply world := served
        refine ih.snapshot served fun snapshot made => ?_
        have member := Pool.mem_own.mpr made
        rw [own] at member
        cases List.mem_singleton.mp member
        exact accepted.elim
      | save snapshot =>
        obtain ⟨first, own, _⟩ := ordered
        have took : (i, ⟨.metadataSnapshot, snapshot⟩) ∈ s.history := Pool.mem_own.mp (by rw [own]; simp)
        cases reply with
        | ok => exact ih.save served took _ fun fresh => ⟨fresh, by simp⟩
        | error err =>
          refine ih.save served took _ fun fresh => ?_
          obtain ⟨kept, taken⟩ := (Bool.and_eq_true_iff).mp fresh
          exact ⟨taken, fun _ => kept⟩
      | _ => exact @Tracks.operate I J saves s key f ih i ⟨_, reply⟩ world _ served (by simp) (by simp)

/-- The label's step answers the read, at the leader or at a standby. -/
inductive Answers (requests : I → MasterRequest) (next : ClusterPool I J) :
    Pool.Label I (Action J) MasterCall MasterCall.Reply → ReplicaListQuery → MasterResponse → Prop
  | leader {i : I} {event : MasterEvent} {query : ReplicaListQuery} {response : MasterResponse} :
      requests i = .getReplicaList query → next.threads i = .done response →
      Answers requests next (.call i event) query response
  | standby (j : J) (query : ReplicaListQuery) (response : MasterResponse) :
      Answers requests next (.act (.answer j (.getReplicaList query) response)) query response

/-- A standby is asked for what it has committed only while its copy is fresh. -/
def ReadsFresh (before : List (Pool.Label I (Action J) MasterCall MasterCall.Reply)) (s : ClusterPool I J) :
    Pool.Label I (Action J) MasterCall MasterCall.Reply → Prop
  | .act (.answer j (.getReplicaList query) _) => ∀ tenant key standby object,
    TenantId.parse query.tenantId = .ok tenant → CacheKey.fromHex query.cacheKey = .ok key →
    s.world.standbys j = some standby → standby.objects.lookup (tenant, key) = some object →
    object.status = .committed → (Freshness.along (tenant, key) before).loaded j = true
  | _ => True

/-- The leader reads from its own objects. -/
private theorem leader_reads {i : I} {event : MasterEvent}
    (run : Run (Pool.Step (server saves)) (Pool.initial cluster (handlers leadership requests)) trace s)
    (last : Pool.Step (server saves) s (.call i event) s') {query : ReplicaListQuery} {response : MasterResponse}
    (read : requests i = .getReplicaList query) (done : s'.threads i = .done response)
    (ok : response.status = 200) : ListsCommitted s.world.leader query response := by
  have program : handlers leadership requests i = Handler.getReplicaList query := by
    rw [handlers, read]
    rfl
  have meets := Handler.getReplicaList_meets query
  rw [← program] at meets
  have answered := Pool.run_meets meets (run.snoc last)
  rw [done] at answered
  obtain ⟨tenant, key, list, parsed, decoded, own, body⟩ := answered ok
  cases last with
  | call pending served =>
    rw [Pool.own_snoc_self] at own
    cases (List.append_inj' (own.trans (List.nil_append _).symm) rfl).2
    obtain ⟨_, ⟨nowMs, served⟩, _⟩ := served
    have found : (s.world.leader.getReplicaList tenant key nowMs).1 = .ok list := congrArg Prod.fst served.symm
    obtain ⟨object, present, committed, same⟩ := MasterState.getReplicaList_replicas found
    exact ⟨tenant, key, list, object, parsed, decoded, body, present, committed, same⟩

/-- While standbys are read only what is fresh, every answer to a read lists the replicas of
what the leader has committed at that moment. -/
theorem reads_consistent (loaded : cluster.leader = loadedMaster cluster.persisted)
    (none : ∀ j, cluster.standbys j = none)
    (fresh : ∀ before middle label next, Run.At (Pool.Step (server saves))
      (Pool.initial cluster (handlers leadership requests)) trace s before middle label next →
      ReadsFresh before middle label)
    {before : List (Pool.Label I (Action J) MasterCall MasterCall.Reply)} {middle next : ClusterPool I J}
    {label : Pool.Label I (Action J) MasterCall MasterCall.Reply}
    (step : Run.At (Pool.Step (server saves)) (Pool.initial cluster (handlers leadership requests)) trace s before
      middle label next) {query : ReplicaListQuery} {response : MasterResponse}
    (answers : Answers requests next label query response) (ok : response.status = 200) :
    ListsCommitted middle.world.leader query response := by
  have current := fresh before middle label next step
  obtain ⟨_, _, run, last, _⟩ := step
  cases answers with
  | leader read done => exact leader_reads run last read done ok
  | standby j =>
    cases last with
    | act acted =>
      obtain ⟨standby, _, _, known, refuses, ran, _⟩ := acted
      obtain ⟨tenant, key, list, object, parsed, decoded, body, found, committed, same⟩ :=
        (Handler.standby_answers refuses ran).2 query rfl ok
      have agrees := (run_tracks loaded none run (tenant, key)).loaded j standby known
        (current tenant key standby object parsed decoded known found committed)
      obtain ⟨there, present, status, replicas⟩ := agrees object found committed
      exact ⟨tenant, key, list, there, parsed, decoded, body, present, status, same.trans replicas.symm⟩

private def hexDigest : String := "bbbbbbbbbbbbbbbbbbbbbbbbbbbbbbbbbbbbbbbbbbbbbbbbbbbbbbbbbbbbbbbb"

private def storedObject : CacheObjectMeta :=
  ⟨⟨"tenant-a"⟩, ⟨hexDigest⟩, 4, .committed, [⟨"store-0", 0, 4⟩], false, none⟩

private def oneStored : Cluster Unit :=
  ⟨loadedMaster (some ⟨[storedObject], [], 0⟩), some ⟨[storedObject], [], 0⟩, fun _ => none⟩

private def storedQuery : ReplicaListQuery := ⟨"tenant-a", hexDigest⟩

private def storedReply : MasterResponse := ⟨200, ReplicaList.toValue ⟨storedObject.replicas, Lease.newAt 1 0⟩⟩

private abbrev StandbyStep : ClusterPool Unit Unit → Pool.Label Unit (Action Unit) MasterCall MasterCall.Reply →
    ClusterPool Unit Unit → Prop := Pool.Step (server fun _ => True)

private theorem storedReply_finishes : ∃ standby',
    Finishes MasterState.Serves (loadedMaster (some ⟨[storedObject], [], 0⟩))
      (MasterRequest.handle (.standby "10.0.0.2:8081" "10.0.0.1:8081") (.getReplicaList storedQuery)) standby'
      storedReply := by
  have parsed : TenantId.parse "tenant-a" = .ok ⟨"tenant-a"⟩ := by decide
  have decoded : CacheKey.fromHex hexDigest = .ok ⟨hexDigest⟩ := by decide
  simp only [MasterRequest.handle, Handler.getReplicaList, Handler.withObject, storedQuery, parsed, decoded]
  exact ⟨_, .call ⟨0, rfl⟩ (.done _ _)⟩

private theorem standby_starts (threads : Unit → Handler MasterResponse) :
    StandbyStep (Pool.initial oneStored threads) (.act (.start ()))
      (Pool.initial { oneStored with standbys := fun _ => some (loadedMaster oneStored.persisted) } threads) :=
  .act ⟨rfl, rfl⟩

private theorem standby_reads (s : ClusterPool Unit Unit) {standby' : MasterState}
    (known : s.world.standbys () = some (loadedMaster (some ⟨[storedObject], [], 0⟩)))
    (answered : Finishes MasterState.Serves (loadedMaster (some ⟨[storedObject], [], 0⟩))
      (MasterRequest.handle (.standby "10.0.0.2:8081" "10.0.0.1:8081") (.getReplicaList storedQuery)) standby'
      storedReply) :
    StandbyStep s (.act (.answer () (.getReplicaList storedQuery) storedReply))
      { s with world := { s.world with standbys := Function.update s.world.standbys () (some standby') } } :=
  .act ⟨_, standby', .standby "10.0.0.2:8081" "10.0.0.1:8081", known, by decide, answered, rfl⟩

private theorem removed_absent (s : MasterState) (tenant : TenantId) (key : CacheKey) :
    (s.remove tenant key).2.objects.lookup (tenant, key) = none := by
  rcases MasterState.remove_cases s tenant key with ⟨absent, he⟩ | ⟨_, _, _, _, he⟩
  · rw [he]
    exact absent
  · rw [he, MasterState.releaseTenantQuota_objects, Finmap.lookup_erase]

private def removal : Unit → MasterRequest := fun _ => .removeObject storedQuery

private theorem removal_eq : handlers (.leader "10.0.0.1:8081") removal = fun _ =>
    .call (.remove ⟨"tenant-a"⟩ ⟨hexDigest⟩) fun result => Handler.acknowledge result fun () => .acknowledged := by
  have parsed : TenantId.parse "tenant-a" = .ok ⟨"tenant-a"⟩ := by decide
  have decoded : CacheKey.fromHex hexDigest = .ok ⟨hexDigest⟩ := by decide
  funext _
  simp [handlers, removal, MasterRequest.handle, Handler.removeObject, Handler.asLeader, Handler.requireLeader,
    LeadershipState.isLeader, LeadershipState.leader, Handler.withObject, storedQuery, parsed, decoded]
  rfl

/-- A standby goes on to answer a read of an object that the leader has removed. -/
theorem removed_object_read_at_standby :
    ¬ ∀ (cluster : Cluster Unit) (leadership : LeadershipState) (requests : Unit → MasterRequest) trace s,
      cluster.leader = loadedMaster cluster.persisted → (∀ j, cluster.standbys j = none) →
      ∀ before middle label next,
        Run.At StandbyStep (Pool.initial cluster (handlers leadership requests)) trace s before middle label next →
        ∀ query response, Answers requests next label query response → response.status = 200 →
        ListsCommitted middle.world.leader query response := by
  intro consistent
  obtain ⟨standby', answered⟩ := storedReply_finishes
  have ready : Run StandbyStep (Pool.initial oneStored (handlers (.leader "10.0.0.1:8081") removal)) [] _ := .start
  rw [removal_eq] at ready
  have removed := (ready.snoc (standby_starts _)).snoc (.call (i := ()) rfl ⟨_, rfl, rfl⟩)
  rw [← removal_eq] at removed
  obtain ⟨tenant, key, list, object, parsed, decoded, _, found, _⟩ := consistent oneStored _ removal _ _ rfl (fun _ => rfl)
    _ _ _ _ ⟨[], rfl, removed, standby_reads _ rfl answered, .start⟩ storedQuery storedReply (.standby () _ _) rfl
  cases (show TenantId.parse "tenant-a" = .ok ⟨"tenant-a"⟩ by decide).symm.trans parsed
  cases (show CacheKey.fromHex hexDigest = .ok ⟨hexDigest⟩ by decide).symm.trans decoded
  cases (removed_absent oneStored.leader ⟨"tenant-a"⟩ ⟨hexDigest⟩).symm.trans found


/-- A standby answers with what the leader has committed while nothing was removed. -/
theorem stored_object_read_at_standby : ∃ s : ClusterPool Unit Unit,
    ListsCommitted s.world.leader storedQuery storedReply := by
  obtain ⟨standby', answered⟩ := storedReply_finishes
  have started : Run StandbyStep (Pool.initial oneStored (handlers (.leader "10.0.0.1:8081") removal))
    [.act (.start ())] _ := Run.start.snoc (standby_starts _)
  refine ⟨_, reads_consistent rfl (fun _ => rfl) ?_ ⟨[], rfl, started, standby_reads _ rfl answered, .start⟩
    (.standby () _ _) rfl⟩
  rintro before middle label next ⟨after, split, _⟩
  rcases before with _ | ⟨_, _ | ⟨_, before⟩⟩ <;> simp at split
  · obtain ⟨rfl, _⟩ := split
    exact trivial
  · obtain ⟨rfl, rfl, _⟩ := split
    exact fun _ _ _ _ _ _ _ _ _ => rfl

end Cluster
end Mooncache
