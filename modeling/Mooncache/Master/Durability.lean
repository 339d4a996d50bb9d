import Mooncache.Master.HandlerCalls

/-! Whether the saved metadata reflects every request that was answered. The operation, the snapshot, the
save and the answer of a request are steps of their own, and those of other requests come between. -/
namespace Mooncache
open Program

abbrev ClusterPool (I J : Type) := Pool I (Cluster J) MasterCall MasterCall.Reply MasterResponse

/-- Every request before its first call. -/
def handlers {I : Type} (leadership : LeadershipState) (requests : I → MasterRequest) : I → Handler MasterResponse :=
  fun i => (requests i).handle leadership

theorem handlers_meets {I : Type} (leadership : LeadershipState) (requests : I → MasterRequest) (i : I) :
    (handlers leadership requests i).Meets Handler.Ordered Handler.Answered [] :=
  Handler.handle_meets leadership (requests i)

namespace MasterState

/-- The stored value is a snapshot of the state, or there is none and the state has no metadata. -/
def StoredAs (s : MasterState) : Option MasterMetadataSnapshot → Prop
  | none => s.objects = ∅ ∧ s.quotas = ∅ ∧ s.evictionsTotal = 0
  | some snapshot => s.Snapshots snapshot

/-- The parts of the state a snapshot holds are the same. -/
structure SameSnapshot (s s' : MasterState) : Prop where
  objects : s'.objects = s.objects
  quotas : s'.quotas = s.quotas
  evictions : s'.evictionsTotal = s.evictionsTotal

theorem SameSnapshot.storedAs {s s' : MasterState} (h : SameSnapshot s s') {persisted : Option MasterMetadataSnapshot}
    (stored : s.StoredAs persisted) : s'.StoredAs persisted := by
  cases persisted with
  | none => exact ⟨h.objects.trans stored.1, h.quotas.trans stored.2.1, h.evictions.trans stored.2.2⟩
  | some snapshot =>
    obtain ⟨objects, quotas, enumerated, rfl⟩ := stored
    refine ⟨objects, quotas, ?_, ?_⟩
    · rw [Enumerates, h.objects, h.quotas]
      exact enumerated
    · simp only [metadataSnapshot, h.evictions]

/-- What a call does to the metadata: nothing unless it is accepted, and then it writes no
committed object of another key than the one it ends. -/
theorem Serves.effect {s s' : MasterState} {event : MasterEvent} (served : s.Serves event.request event.reply s') :
    ¬ event.Accepted ∧ SameSnapshot s s' ∨ event.Accepted ∧ (s'.objects = s.objects ∨
      (∃ key object, (∀ old, s.objects.lookup key = some old → old.status ≠ .committed) ∧
        s'.objects = s.objects.insert key object) ∨
      ∃ key, event.Ends key ∧ (s'.objects = s.objects.erase key ∨ ∃ object, s'.objects = s.objects.insert key object)) := by
  obtain ⟨request, reply⟩ := event
  have refused {err : CacheError} {α : Type} (h : ∃ value : α, (.error err : CacheResult α) = .ok value) : False := by
    obtain ⟨_, ⟨⟩⟩ := h
  cases request with
  | putStart tenant key len replicaCount =>
    rcases putStart_cases s tenant key len replicaCount with ⟨err, he⟩ | ⟨_, _, _, _, absent, _, _, _, _, _, _, he⟩ <;>
      cases (show (reply, s') = _ from served).trans he
    · exact .inl ⟨refused, rfl, rfl, rfl⟩
    · refine .inr ⟨⟨_, rfl⟩, .inr (.inl ⟨(tenant, key), _, fun old found => ?_, rfl⟩)⟩
      cases absent.symm.trans found
  | putEnd tenant key =>
    rcases putEnd_cases s tenant key with ⟨err, he⟩ | ⟨object, written, unfinished, he⟩ <;>
      cases (show (reply, s') = _ from served).trans he
    · exact .inl ⟨refused, rfl, rfl, rfl⟩
    · refine .inr ⟨⟨_, rfl⟩, .inr (.inl ⟨(tenant, key), _, fun old found => ?_, rfl⟩)⟩
      cases written.symm.trans found
      rcases unfinished with status | status <;> simp [status]
  | putRevoke tenant key =>
    rcases putRevoke_cases s tenant key with ⟨_, he⟩ | ⟨object, _, he⟩ <;>
      cases (show (reply, s') = _ from served).trans he
    · exact .inl ⟨refused, rfl, rfl, rfl⟩
    · exact .inr ⟨⟨_, rfl⟩, .inr (.inr ⟨(tenant, key), ⟨rfl, rfl⟩, .inr ⟨_, retire_objects _ _ _ _⟩⟩)⟩
  | getReplicaList tenant key =>
    obtain ⟨nowMs, served⟩ := served
    rcases getReplicaList_cases s tenant key nowMs with he | ⟨_, _, _, _, _, _, he⟩ <;> cases served.trans he <;>
      exact .inl ⟨id, rfl, rfl, rfl⟩
  | remove tenant key =>
    have after : s' = (s.remove tenant key).2 := congrArg Prod.snd (show (reply, s') = _ from served)
    have replied : reply = (s.remove tenant key).1 := congrArg Prod.fst (show (reply, s') = _ from served)
    rcases remove_cases s tenant key with ⟨_, he⟩ | ⟨_, _, ok, _, he⟩
    · rw [he] at replied after
      subst replied after
      exact .inl ⟨refused, rfl, rfl, rfl⟩
    · refine .inr ⟨⟨(), replied.trans ok⟩, .inr (.inr ⟨(tenant, key), ⟨rfl, replied.trans ok⟩, .inl ?_⟩)⟩
      rw [after, he, releaseTenantQuota_objects]
  | setTenantQuota tenantId dramBytes ssdBytes =>
    have set : (reply, s') = s.setTenantQuota tenantId dramBytes ssdBytes := served
    unfold setTenantQuota at set
    split at set <;> cases set
    · exact .inl ⟨refused, rfl, rfl, rfl⟩
    · exact .inr ⟨⟨_, rfl⟩, .inl rfl⟩
  | mountSegment nodeId len =>
    cases (show s' = _ from served)
    exact .inr ⟨trivial, .inl rfl⟩
  | metadataSnapshot =>
    cases served.2
    exact .inl ⟨id, rfl, rfl, rfl⟩
  | save snapshot => exact served.elim
  | resume =>
    cases (show s' = s from served)
    exact .inl ⟨id, rfl, rfl, rfl⟩

theorem Serves.sameSnapshot {s s' : MasterState} {event : MasterEvent} (served : s.Serves event.request event.reply s')
    (refused : ¬ event.Accepted) : SameSnapshot s s' :=
  served.effect.elim And.right fun accepted => absurd accepted.1 refused

end MasterState

namespace Cluster
variable {I J : Type} [DecidableEq I] [DecidableEq J]

/-- A save of the request has taken effect. -/
def Saved (s : ClusterPool I J) (i : I) : Prop := ∃ snapshot, (i, ⟨.save snapshot, .ok ()⟩) ∈ s.history

/-- A save writes a snapshot that was taken after the operation of every request whose own save has
taken effect, whether or not that request has been answered yet. -/
def SavesCurrent (s : ClusterPool I J) : Pool.Label I (Action J) MasterCall MasterCall.Reply → Prop
  | .call i ⟨.save _, _⟩ => ∀ before after snapshot,
    s.history = before ++ (i, ⟨.metadataSnapshot, snapshot⟩) :: after →
    ∀ j event, (j, event) ∈ after → MasterEvent.Accepted event → ¬ Saved s j
  | _ => True

section
variable {saves : Except String Unit → Prop} {leadership : LeadershipState} {requests : I → MasterRequest}
  {cluster : Cluster J} {trace : List (Pool.Label I (Action J) MasterCall MasterCall.Reply)} {s : ClusterPool I J}

/-- A snapshot that a request took is one of a state the run went through, just before. -/
theorem run_taken (run : Run (Pool.Step (server saves)) (Pool.initial cluster (handlers leadership requests)) trace s)
    {i : I} {snapshot : MasterMetadataSnapshot} (taken : (i, ⟨.metadataSnapshot, snapshot⟩) ∈ s.history) :
    ∃ middle rest, Run.Through (Pool.Step (server saves)) (Pool.initial cluster (handlers leadership requests)) trace s
        middle ∧ middle.world.leader.Snapshots snapshot ∧
      s.history = middle.history ++ (i, ⟨.metadataSnapshot, snapshot⟩) :: rest := by
  induction run with
  | start => simp [Pool.initial] at taken
  | @snoc trace s s' label run last ih =>
    cases last with
    | @call j request next reply world pending served =>
      rcases List.mem_append.mp taken with old | fresh
      · obtain ⟨middle, rest, through, snapshots, split⟩ := ih old
        exact ⟨middle, rest ++ [(j, ⟨request, reply⟩)], through.snoc (.call pending served), snapshots, by simp [split]⟩
      · obtain ⟨rfl, same⟩ := Prod.mk.inj (List.mem_singleton.mp fresh)
        cases same
        obtain ⟨_, ⟨snapshots, _⟩, _⟩ := id served
        exact ⟨s, [], (Run.through_self run).snoc (.call pending served), snapshots, rfl⟩
    | act acted =>
      obtain ⟨middle, rest, through, snapshots, split⟩ := ih taken
      exact ⟨middle, rest, through.snoc (.act acted), snapshots, split⟩

/-- Standbys touch neither the leader nor the store. -/
theorem Acts.frame {s s' : Cluster J} {action : Action J} (acted : s.Acts action s') :
    s'.leader = s.leader ∧ s'.persisted = s.persisted := by
  cases action with
  | start j =>
    obtain ⟨_, rfl⟩ := acted
    exact ⟨rfl, rfl⟩
  | answer j request response =>
    obtain ⟨_, _, _, _, _, _, rfl⟩ := acted
    exact ⟨rfl, rfl⟩

omit [DecidableEq J] in
/-- A call that is no save happens at the leader and leaves the store. -/
theorem Serves.lock {s s' : Cluster J} {call : MasterCall} {reply : call.Reply} (served : s.Serves saves call reply s')
    (other : ∀ snapshot, call ≠ .save snapshot) :
    s.leader.Serves call reply s'.leader ∧ s'.persisted = s.persisted := by
  cases call with
  | save snapshot => exact absurd rfl (other snapshot)
  | _ =>
    obtain ⟨_, served, rfl⟩ := served
    exact ⟨served, rfl⟩

omit [DecidableEq J] in
theorem Serves.sameSnapshot {s s' : Cluster J} {event : MasterEvent}
    (served : s.Serves saves event.request event.reply s') (refused : ¬ event.Accepted) :
    MasterState.SameSnapshot s.leader s'.leader := by
  by_cases saving : ∃ snapshot, event.request = .save snapshot
  · obtain ⟨request, reply⟩ := event
    obtain ⟨snapshot, rfl⟩ := saving
    obtain ⟨_, rfl | ⟨_, rfl⟩⟩ := served <;> exact ⟨rfl, rfl, rfl⟩
  · exact (served.lock fun snapshot h => saving ⟨snapshot, h⟩).1.sameSnapshot refused

/-- A request that was answered after an accepted operation has saved before. -/
theorem run_saved (run : Run (Pool.Step (server saves)) (Pool.initial cluster (handlers leadership requests)) trace s)
    {i : I} {event : MasterEvent} {response : MasterResponse} (made : (i, event) ∈ s.history)
    (accepted : event.Accepted) (done : s.threads i = .done response) :
    ∃ snapshot saved, Pool.own s.history i = [event, ⟨.metadataSnapshot, snapshot⟩, ⟨.save snapshot, saved⟩, ⟨.resume, ()⟩] ∧
      (response.Success ↔ saved = .ok ()) := by
  have meets := Pool.run_meets (handlers_meets leadership requests i) run
  rw [done] at meets
  have member := Pool.mem_own.mpr made
  rcases meets with none | ⟨first, snapshot, saved, own, _, success⟩
  · exact absurd accepted (none event member)
  · rw [own] at member
    simp only [List.mem_cons, List.not_mem_nil, or_false] at member
    rcases member with rfl | rfl | rfl | rfl
    · exact ⟨snapshot, saved, own, success⟩
    · exact accepted.elim
    · exact accepted.elim
    · exact accepted.elim

omit [DecidableEq J] in
/-- A request that has a snapshot and has not saved it made no call since it was taken. -/
private theorem not_mem_after_taken {history before rest : List (I × MasterEvent)} {i : I} {first event : MasterEvent}
    {snapshot : MasterMetadataSnapshot} (split : history = before ++ (i, ⟨.metadataSnapshot, snapshot⟩) :: rest)
    (own : Pool.own history i = [first, ⟨.metadataSnapshot, snapshot⟩]) (accepted : first.Accepted) :
    (i, event) ∉ rest := by
  intro late
  rw [split, Pool.own_append, Pool.own_cons_self] at own
  have short := congrArg List.length own
  have filled := List.length_pos_of_mem (Pool.mem_own.mpr late)
  simp only [List.length_append, List.length_cons, List.length_nil] at short
  -- Two calls in all, and one after the snapshot: the snapshot would be the first.
  have empty : Pool.own before i = [] := List.eq_nil_of_length_eq_zero (by omega)
  rw [empty] at own
  cases (List.cons.inj own).1
  exact accepted

/-- While every save is current, the stored metadata is that of a moment at which the operations of
all requests with a save in the store had been made. -/
theorem run_reflects
    (run : Run (Guarded SavesCurrent (Pool.Step (server (· = .ok ()))))
      (Pool.initial cluster (handlers leadership requests)) trace s)
    (stored : cluster.leader.StoredAs cluster.persisted) :
    ∃ middle, Run.Through (Pool.Step (server (· = .ok ()))) (Pool.initial cluster (handlers leadership requests)) trace
        s middle ∧ middle.world.leader.StoredAs s.world.persisted ∧
      ∀ i event, (i, event) ∈ s.history → MasterEvent.Accepted event → Saved s i → (i, event) ∈ middle.history := by
  induction run with
  | start => exact ⟨_, Run.through_self .start, stored, by simp [Pool.initial]⟩
  | @snoc trace s s' label run last ih =>
    obtain ⟨middle, through, kept, reflects⟩ := ih
    obtain ⟨current, last⟩ := last
    have past := run.of_guarded
    cases last with
    | act acted =>
      obtain ⟨_, same⟩ := acted.frame
      exact ⟨middle, through.snoc (.act acted), by rw [same]; exact kept, reflects⟩
    | @call j request next reply world pending served =>
      have meets := Pool.run_meets (handlers_meets leadership requests j) past
      rw [pending] at meets
      by_cases saving : ∃ snapshot, request = .save snapshot
      · obtain ⟨snapshot, rfl⟩ := saving
        obtain ⟨first, own, ready⟩ := meets.1
        have took : (j, ⟨.metadataSnapshot, snapshot⟩) ∈ s.history := Pool.mem_own.mp (by rw [own]; simp)
        obtain ⟨moment, rest, through, snapshots, split⟩ := run_taken past took
        obtain ⟨rfl, store⟩ := id served
        have saved : world.persisted = some snapshot := by
          rcases store with rfl | ⟨failed, _⟩
          · rfl
          · exact absurd rfl failed
        refine ⟨moment, through.snoc (.call pending served), by rw [saved]; exact snapshots, ?_⟩
        intro i event made accepted landed
        rcases List.mem_append.mp made with old | final
        · rw [split] at old
          rcases List.mem_append.mp old with before | after
          · exact before
          · rcases List.mem_cons.mp after with same | late
            · cases same
              exact accepted.elim
            · exfalso
              rcases eq_or_ne i j with rfl | hne
              · exact not_mem_after_taken split own ready late
              · obtain ⟨other, landed⟩ := landed
                refine current _ _ _ split i event late accepted ⟨other, ?_⟩
                exact (List.mem_append.mp landed).resolve_right fun final =>
                  hne (congrArg Prod.fst (List.mem_singleton.mp final))
        · cases List.mem_singleton.mp final
          exact accepted.elim
      · have same : world.persisted = s.world.persisted := (served.lock fun snapshot h => saving ⟨snapshot, h⟩).2
        refine ⟨middle, through.snoc (.call pending served), by rw [same]; exact kept, ?_⟩
        rintro i event made accepted ⟨snapshot, landed⟩
        -- no save lands with this call
        have landed : (i, ⟨.save snapshot, .ok ()⟩) ∈ s.history := (List.mem_append.mp landed).resolve_right fun final => by
          cases List.mem_singleton.mp final
          exact saving ⟨snapshot, rfl⟩
        rcases List.mem_append.mp made with old | final
        · exact reflects i event old accepted ⟨snapshot, landed⟩
        · cases List.mem_singleton.mp final
          have mine := Pool.mem_own.mpr landed
          rw [Handler.Ordered.first meets.1 accepted] at mine
          cases mine

/-- An answer of 200 says that the request's save has taken effect. -/
theorem saved_of_success
    (run : Run (Pool.Step (server (· = .ok ()))) (Pool.initial cluster (handlers leadership requests)) trace s)
    {i : I} {event : MasterEvent} {response : MasterResponse} (made : (i, event) ∈ s.history) (accepted : event.Accepted)
    (done : s.threads i = .done response) (success : response.Success) : Saved s i := by
  obtain ⟨snapshot, saved, own, ended⟩ := run_saved run made accepted done
  obtain rfl := ended.mp success
  exact ⟨snapshot, Pool.mem_own.mp (by rw [own]; simp)⟩

/-- A stretch of a run without an accepted operation leaves the leader's metadata alone. -/
theorem run_sameSnapshot {middle : ClusterPool I J} (run : Run (Pool.Step (server saves)) middle trace s)
    (quiet : ∀ i event, .call i event ∈ trace → ¬ MasterEvent.Accepted event) :
    MasterState.SameSnapshot middle.world.leader s.world.leader := by
  induction run with
  | start => exact ⟨rfl, rfl, rfl⟩
  | snoc run last ih =>
    have before := ih fun i event made => quiet i event (List.mem_append_left _ made)
    cases last with
    | act acted =>
      rw [acted.frame.1]
      exact before
    | @call j request next reply world pending served =>
      have after := @Serves.sameSnapshot J saves _ world ⟨request, reply⟩ served (quiet j _ (by simp))
      exact ⟨after.objects.trans before.objects, after.quotas.trans before.quotas,
        after.evictions.trans before.evictions⟩

/-- Saves are answered as the store allows. -/
theorem run_saves {middle : ClusterPool I J} (run : Run (Pool.Step (server saves)) middle trace s)
    (start : middle.history = []) {i : I} {snapshot : MasterMetadataSnapshot} {saved : Except String Unit}
    (made : (i, ⟨.save snapshot, saved⟩) ∈ s.history) : saves saved := by
  induction run with
  | start => simp [start] at made
  | snoc run last ih =>
    cases last with
    | act acted => exact ih made
    | call pending served =>
      rcases List.mem_append.mp made with old | final
      · exact ih old
      · cases List.mem_singleton.mp final
        exact served.1

/-- No request is between its first call and its answer. -/
def Idle (s : ClusterPool I J) : Prop :=
  ∀ i, Pool.own s.history i = [] ∨ ∃ response, s.threads i = .done response

/-- While every save is current, the store holds the leader's metadata whenever no request
is in flight. -/
theorem idle_stored
    (run : Run (Guarded SavesCurrent (Pool.Step (server (· = .ok ()))))
      (Pool.initial cluster (handlers leadership requests)) trace s)
    (stored : cluster.leader.StoredAs cluster.persisted) (idle : Idle s) :
    s.world.leader.StoredAs s.world.persisted := by
  obtain ⟨middle, ⟨earlier, later, rfl, before, after⟩, kept, reflects⟩ := run_reflects run stored
  obtain ⟨new, split, calls⟩ := Pool.run_grows after
  refine (run_sameSnapshot after fun i event made accepted => ?_).storedAs kept
  have late := (calls i event).mpr made
  have present : (i, event) ∈ s.history := by simp [split, late]
  rcases idle i with none | ⟨response, done⟩
  · exact absurd (none ▸ Pool.mem_own.mpr present) (by simp)
  · obtain ⟨snapshot, saved, own, _⟩ := run_saved run.of_guarded present accepted done
    have final : (i, ⟨.save snapshot, saved⟩) ∈ s.history := Pool.mem_own.mp (by rw [own]; simp)
    obtain rfl := run_saves run.of_guarded rfl final
    have early := Pool.mem_own.mpr (reflects i event present accepted ⟨snapshot, final⟩)
    rw [split, Pool.own_append] at own
    cases first : Pool.own middle.history i with
    | nil => simp [first] at early
    | cons head tail =>
      rw [first, List.cons_append] at own
      have again : event ∈ tail ++ Pool.own new i := List.mem_append_right _ (Pool.mem_own.mpr late)
      rw [(List.cons.inj own).2] at again
      simp only [List.mem_cons, List.not_mem_nil, or_false] at again
      rcases again with rfl | rfl | rfl <;> exact accepted

/-- If no save writes a snapshot older than the operation of a request whose save is in the store, then at
every moment the store reflects every answered request, and when no request is in flight it
holds the leader's metadata. -/
theorem acknowledged_durable
    (run : Run (Guarded SavesCurrent (Pool.Step (server (· = .ok ()))))
      (Pool.initial cluster (handlers leadership requests)) trace s)
    (stored : cluster.leader.StoredAs cluster.persisted) :
    (∃ middle, Run.Through (Pool.Step (server (· = .ok ()))) (Pool.initial cluster (handlers leadership requests)) trace
        s middle ∧ middle.world.leader.StoredAs s.world.persisted ∧
      ∀ i event response, (i, event) ∈ s.history → MasterEvent.Accepted event → s.threads i = .done response →
        response.Success → (i, event) ∈ middle.history) ∧
    (Idle s → s.world.leader.StoredAs s.world.persisted) := by
  refine ⟨?_, idle_stored run stored⟩
  obtain ⟨middle, through, kept, reflects⟩ := run_reflects run stored
  refine ⟨middle, through, kept, fun i event response made accepted done success => ?_⟩
  exact reflects i event made accepted (saved_of_success run.of_guarded made accepted done success)

end

private def emptyCluster : Cluster Empty := ⟨MasterState.new.mountSegment "default" 1048576, none, nofun⟩

private def twoQuotas (first : Bool) : MasterRequest :=
  .setTenantQuota ⟨if first then "tenant-a" else "tenant-b", 10, 0⟩

private def quotaCall (first : Bool) : MasterCall :=
  .setTenantQuota (if first then "tenant-a" else "tenant-b") 10 0

private def quotaSnapshot (tenants : List String) : MasterMetadataSnapshot :=
  ⟨[], tenants.map fun tenant => (⟨tenant⟩, ⟨10, 0, 0, 0⟩), 0⟩

private abbrev QuotaStep : ClusterPool Bool Empty → Pool.Label Bool (Action Empty) MasterCall MasterCall.Reply →
    ClusterPool Bool Empty → Prop := Pool.Step (server (· = .ok ()))

private theorem quotaHandlers_eq : handlers (.leader "10.0.0.1:8081") twoQuotas =
    fun first => .call (quotaCall first) fun result => Handler.acknowledge result fun () => .acknowledged := by
  funext first
  simp [handlers, twoQuotas, MasterRequest.handle, Handler.setTenantQuota, Handler.asLeader, Handler.requireLeader,
    LeadershipState.isLeader, LeadershipState.leader]
  rfl

private theorem idle_of_done {s : ClusterPool Bool Empty} (response : Bool → MasterResponse)
    (first : s.threads true = .done (response true)) (second : s.threads false = .done (response false)) : Idle s
  | true => .inr ⟨_, first⟩
  | false => .inr ⟨_, second⟩

private theorem resume_step (s : ClusterPool Bool Empty) (i : Bool) {next : Unit → Handler MasterResponse}
    (waits : s.threads i = .call .resume next) : QuotaStep s (.call i ⟨.resume, ()⟩)
      ⟨s.world, Function.update s.threads i (next ()), s.history ++ [(i, ⟨.resume, ()⟩)]⟩ :=
  .call waits ⟨s.world.leader, rfl, rfl⟩

/-- The second request is carried out, saved and answered between the snapshot and the save of the first. -/
private theorem quotas_run : ∃ trace s,
    Run QuotaStep (Pool.initial emptyCluster (handlers (.leader "10.0.0.1:8081") twoQuotas)) trace s ∧ Idle s ∧
    s.world.persisted = some (quotaSnapshot ["tenant-a"]) ∧ s.world.leader.quotas.entries.card = 2 := by
  rw [quotaHandlers_eq]
  have ready : Run QuotaStep (Pool.initial emptyCluster (fun first => .call (quotaCall first) fun result =>
    Handler.acknowledge result fun () => .acknowledged)) [] _ := .start
  have first := (ready.snoc (.call (i := true) rfl ⟨_, rfl, rfl⟩)).snoc (.call (i := true) rfl
    ⟨_, ⟨⟨[], [⟨⟨"tenant-a"⟩, ⟨10, 0, 0, 0⟩⟩], ⟨by decide, by decide⟩, rfl⟩, rfl⟩, rfl⟩)
  have second := (((first.snoc (.call (i := false) rfl ⟨_, rfl, rfl⟩)).snoc (.call (i := false) rfl
    ⟨_, ⟨⟨[], [⟨⟨"tenant-a"⟩, ⟨10, 0, 0, 0⟩⟩, ⟨⟨"tenant-b"⟩, ⟨10, 0, 0, 0⟩⟩], ⟨by decide, by decide⟩, rfl⟩, rfl⟩,
      rfl⟩)).snoc (.call (i := false) rfl ⟨rfl, .inl rfl⟩)).snoc (resume_step _ false rfl)
  have stale := (second.snoc (.call (i := true) rfl ⟨rfl, .inl rfl⟩)).snoc (resume_step _ true rfl)
  exact ⟨_, _, stale, idle_of_done (fun _ => .acknowledged) rfl rfl, rfl, by decide⟩

/-- A save that comes late takes back what another request was promised. -/
theorem stale_save_loses_quota :
    ¬ ∀ (cluster : Cluster Empty) (leadership : LeadershipState) (requests : Bool → MasterRequest) trace s,
      Run QuotaStep (Pool.initial cluster (handlers leadership requests)) trace s →
      cluster.leader.StoredAs cluster.persisted →
      (∃ middle, Run.Through QuotaStep (Pool.initial cluster (handlers leadership requests)) trace s middle ∧
        middle.world.leader.StoredAs s.world.persisted ∧
        ∀ i event response, (i, event) ∈ s.history → MasterEvent.Accepted event → s.threads i = .done response →
          response.Success → (i, event) ∈ middle.history) ∧
      (Idle s → s.world.leader.StoredAs s.world.persisted) := by
  intro durable
  obtain ⟨trace, s, run, idle, persisted, two⟩ := quotas_run
  have stored := (durable emptyCluster _ _ trace s run ⟨rfl, rfl, rfl⟩).2 idle
  rw [persisted] at stored
  obtain ⟨objects, quotas, ⟨_, enumerated⟩, same⟩ := stored
  have one := congrArg (fun snapshot => snapshot.quotas.length) same
  rw [← enumerated, Multiset.coe_card] at two
  simp only [quotaSnapshot, MasterState.metadataSnapshot, List.map_cons, List.map_nil, List.length_cons,
    List.length_nil, List.length_map] at one
  omega

/-- A save that comes right after its snapshot is current. -/
private theorem current_of_last {s : ClusterPool Bool Empty} {i : Bool} {earlier : List (Bool × MasterEvent)}
    {last : Bool × MasterEvent} {snapshot : MasterMetadataSnapshot} {saved : Except String Unit}
    (ends : s.history = earlier ++ [last]) (fresh : ∀ other, (i, ⟨.metadataSnapshot, other⟩) ∉ earlier) :
    SavesCurrent s (.call i ⟨.save snapshot, saved⟩) := by
  intro before after taken split j event late
  rcases List.eq_nil_or_concat after with rfl | ⟨most, final, rfl⟩
  · cases late
  · have split : earlier ++ [last] = (before ++ (i, ⟨.metadataSnapshot, taken⟩) :: most) ++ [final] := by
      rw [← ends, split]
      simp
    exact absurd ((List.append_inj' split rfl).1 ▸ List.mem_append_right before List.mem_cons_self) (fresh taken)

/-- Both operations come first, and each request saves and is answered in turn. -/
private theorem inTurn_run : ∃ trace s, Run (Guarded SavesCurrent QuotaStep)
      (Pool.initial emptyCluster (handlers (.leader "10.0.0.1:8081") twoQuotas)) trace s ∧ Idle s ∧
    s.world.persisted = some (quotaSnapshot ["tenant-a", "tenant-b"]) := by
  rw [quotaHandlers_eq]
  have both (s : MasterState) (quotas : s.quotas.entries = ↑[(⟨⟨"tenant-a"⟩, ⟨10, 0, 0, 0⟩⟩ : Entry TenantId TenantQuota),
      ⟨⟨"tenant-b"⟩, ⟨10, 0, 0, 0⟩⟩]) (objects : s.objects.entries = 0) (evictions : s.evictionsTotal = 0) :
      s.Snapshots (quotaSnapshot ["tenant-a", "tenant-b"]) :=
    ⟨[], [⟨⟨"tenant-a"⟩, ⟨10, 0, 0, 0⟩⟩, ⟨⟨"tenant-b"⟩, ⟨10, 0, 0, 0⟩⟩], ⟨objects.symm, quotas.symm⟩, by
      simp [quotaSnapshot, MasterState.metadataSnapshot, evictions]⟩
  have ready : Run (Guarded SavesCurrent QuotaStep) (Pool.initial emptyCluster (fun first => .call (quotaCall first)
    fun result => Handler.acknowledge result fun () => .acknowledged)) [] _ := .start
  have set := (ready.snoc ⟨by exact trivial, .call (i := true) rfl ⟨_, rfl, rfl⟩⟩).snoc
    ⟨by exact trivial, .call (i := false) rfl ⟨_, rfl, rfl⟩⟩
  have first := set.snoc ⟨by exact trivial, .call (i := true) rfl ⟨_, ⟨both _ (by decide) (by decide) rfl, rfl⟩, rfl⟩⟩
    |>.snoc ⟨current_of_last rfl (by simp [Pool.initial, quotaCall]), .call (i := true) rfl ⟨rfl, .inl rfl⟩⟩
    |>.snoc ⟨by exact trivial, resume_step _ true rfl⟩
  have second := first.snoc ⟨by exact trivial, .call (i := false) rfl ⟨_, ⟨both _ (by decide) (by decide) rfl, rfl⟩, rfl⟩⟩
    |>.snoc ⟨current_of_last rfl (by simp [Pool.initial, quotaCall]), .call (i := false) rfl ⟨rfl, .inl rfl⟩⟩
    |>.snoc ⟨by exact trivial, resume_step _ false rfl⟩
  exact ⟨_, _, second, idle_of_done (fun _ => .acknowledged) rfl rfl, rfl⟩

/-- Two quotas set side by side are both in the store once both requests are answered. -/
theorem quotas_saved_in_turn : ∃ s : ClusterPool Bool Empty,
    s.world.persisted = some (quotaSnapshot ["tenant-a", "tenant-b"]) ∧ s.world.leader.StoredAs s.world.persisted := by
  obtain ⟨trace, s, run, idle, persisted⟩ := inTurn_run
  exact ⟨s, persisted, (acknowledged_durable run ⟨rfl, rfl, rfl⟩).2 idle⟩

end Cluster
end Mooncache
