import Mooncache.Gateway.Reservation
import Mooncache.Gateway.WriteOutcome

/-! A request with a local master: what it commits, and what becomes of a reservation that it cannot use. -/
namespace Mooncache
open Program

namespace CacheWorld
variable {S : Type}

/-- The local master answers every call; the stores may fail any, and whatever else a request waits for
answers as it likes. -/
def ServesSolo (client : StoreClient S) (s : CacheWorld S) : (call : Call) → call.Reply → CacheWorld S → Prop
  | .getReplicaList tenantId cacheKey, reply, s' => s.Serves client (.getReplicaList tenantId cacheKey) reply s'
  | .putStart tenantId cacheKey len count, reply, s' => s.Serves client (.putStart tenantId cacheKey len count) reply s'
  | .putEnd tenantId cacheKey, reply, s' => s.Serves client (.putEnd tenantId cacheKey) reply s'
  | .putRevoke tenantId cacheKey, reply, s' => s.Serves client (.putRevoke tenantId cacheKey) reply s'
  | .writePreallocatedChunk nodeId tenantId cacheKey handle bytes, reply, s' =>
    s.Serves client (.writePreallocatedChunk nodeId tenantId cacheKey handle bytes) reply s' ∨
      s.Fails client (.writePreallocatedChunk nodeId tenantId cacheKey handle bytes) reply s'
  | _, _, s' => s' = s

/-- Others operate on the master and use the stores. -/
def soloServer (client : StoreClient S) : Server (CacheWorld S) MasterOp Call Call.Reply where
  serve := ServesSolo client
  act s op s' := MasterState.Step s.master op s'.master

end CacheWorld

/-- A call on the reservation of a key that took effect. -/
def GatewayEvent.ActsOn (key : ObjectKey) : GatewayEvent → Prop
  | ⟨.putStart tenantId cacheKey _ _, reply⟩ => (tenantId, cacheKey) = key ∧ ∃ replicas, reply = .ok replicas
  | ⟨.putEnd tenantId cacheKey, reply⟩ | ⟨.putRevoke tenantId cacheKey, reply⟩ =>
    (tenantId, cacheKey) = key ∧ reply = .ok ()
  | _ => False

/-- What an event does to the object under a key. -/
inductive Affects (key : ObjectKey) (s s' : MasterState) : GatewayEvent → Prop
  | kept {event : GatewayEvent} : ¬ GatewayEvent.ActsOn key event →
    s'.objects.lookup key = s.objects.lookup key → Affects key s s' event
  | reserved {len count : Nat} {replicas : List ReplicaDescriptor} : s.objects.lookup key = none →
    s'.objects.lookup key = some ⟨key.1, key.2, len, .reserving, replicas, false, none⟩ →
    Affects key s s' ⟨.putStart key.1 key.2 len count, .ok replicas⟩
  | committed {object : CacheObjectMeta} : s.objects.lookup key = some object →
    object.status = .reserving ∨ object.status = .writing →
    s'.objects.lookup key = some { object with status := .committed } →
    Affects key s s' ⟨.putEnd key.1 key.2, .ok ()⟩
  | revoked {object : CacheObjectMeta} : s.objects.lookup key = some object → s' = s.retire key object .revoked →
    Affects key s s' ⟨.putRevoke key.1 key.2, .ok ()⟩

namespace CacheWorld
variable {S : Type} {client : StoreClient S} {s s' : CacheWorld S} {key : ObjectKey}

theorem ServesSolo.affects {call : Call} {reply : call.Reply} (served : s.ServesSolo client call reply s') :
    Affects key s.master s'.master ⟨call, reply⟩ := by
  cases call with
  | getReplicaList tenantId cacheKey =>
    obtain ⟨nowMs, _, rfl⟩ := served
    refine .kept id ?_
    rcases s.master.getReplicaList_cases tenantId cacheKey nowMs with same | ⟨_, _, _, _, _, _, same⟩ <;> simp only [same]
  | putStart tenantId cacheKey len count =>
    obtain ⟨rfl, rfl⟩ := served
    rcases s.master.putStart_cases tenantId cacheKey len count with
      ⟨err, he⟩ | ⟨reserved, allocations, after, _, absent, quota, _, _, _, _, _, he⟩
    · rw [he]
      exact .kept (by rintro ⟨_, _, ⟨⟩⟩) rfl
    · rw [he]
      by_cases here : (tenantId, cacheKey) = key
      · subst here
        exact .reserved absent (Finmap.lookup_insert _)
      · refine .kept (fun acts => here acts.1) ?_
        rw [MasterState.reserveTenantQuota_frame quota]
        exact Finmap.lookup_insert_of_ne _ (Ne.symm here)
  | putEnd tenantId cacheKey =>
    obtain ⟨rfl, rfl⟩ := served
    rcases s.master.putEnd_cases tenantId cacheKey with ⟨err, he⟩ | ⟨object, found, writable, he⟩
    · rw [he]
      exact .kept (by rintro ⟨_, ⟨⟩⟩) rfl
    · rw [he]
      by_cases here : (tenantId, cacheKey) = key
      · subst here
        exact .committed found writable (Finmap.lookup_insert _)
      · exact .kept (fun acts => here acts.1) (Finmap.lookup_insert_of_ne _ (Ne.symm here))
  | putRevoke tenantId cacheKey =>
    obtain ⟨rfl, rfl⟩ := served
    rcases s.master.putRevoke_cases tenantId cacheKey with ⟨_, he⟩ | ⟨object, found, he⟩
    · rw [he]
      exact .kept (by rintro ⟨_, ⟨⟩⟩) rfl
    · rw [he]
      by_cases here : (tenantId, cacheKey) = key
      · subst here
        exact .revoked found rfl
      · refine .kept (fun acts => here acts.1) ?_
        rw [MasterState.retire_objects, Finmap.lookup_insert_of_ne _ (Ne.symm here)]
  | writePreallocatedChunk =>
    rcases served with ⟨_, rfl⟩ | ⟨_, rfl | rfl⟩ <;> exact .kept id rfl
  | _ =>
    cases served
    exact .kept id rfl

/-- A reservation is there to be taken back. -/
theorem ServesSolo.revokes {reply : GatewayResult Unit} {object : CacheObjectMeta}
    (served : s.ServesSolo client (.putRevoke key.1 key.2) reply s') (found : s.master.objects.lookup key = some object) :
    reply = .ok () ∧ s'.master = s.master.retire key object .revoked := by
  obtain ⟨rfl, rfl⟩ := served
  rcases s.master.putRevoke_cases key.1 key.2 with ⟨absent, _⟩ | ⟨held, there, he⟩
  · cases absent.symm.trans found
  · cases there.symm.trans found
    rw [he]
    exact ⟨rfl, rfl⟩

end CacheWorld

section
variable {key : ObjectKey} {s s' : MasterState} {event : GatewayEvent} {past before new : List GatewayEvent} {len : Nat}

/-- While a reservation lingers its object is left alone. -/
theorem Affects.kept_of_lingers (affects : Affects key s s' event) (lingers : event.Lingers) :
    s'.objects.lookup key = s.objects.lookup key := by
  cases affects with
  | kept _ same => exact same
  | committed => obtain ⟨_, ⟨⟩⟩ := lingers
  | reserved | revoked => exact lingers.elim

/-- No call brings a revoked object back. -/
theorem Affects.revoked_stays (affects : Affects key s s' event) {object : CacheObjectMeta}
    (found : s.objects.lookup key = some object) (dead : object.status = .revoked) :
    ∃ object, s'.objects.lookup key = some object ∧ object.status = .revoked := by
  cases affects with
  | kept _ same => exact ⟨object, same.trans found, dead⟩
  | reserved absent => cases absent.symm.trans found
  | committed there writable =>
    cases there.symm.trans found
    rw [dead] at writable
    exact absurd writable (by simp)
  | revoked there after =>
    rw [after, MasterState.retire_objects]
    exact ⟨_, Finmap.lookup_insert _, rfl⟩

/-- An object is committed by a `put_end` only. -/
theorem Affects.commits (affects : Affects key s s' event) {object : CacheObjectMeta}
    (found : s'.objects.lookup key = some object) (committed : object.status = .committed) :
    s.objects.lookup key = some object ∨ event = ⟨.putEnd key.1 key.2, .ok ()⟩ := by
  cases affects with
  | kept _ same => exact .inl (same.symm.trans found)
  | committed => exact .inr rfl
  | reserved _ there =>
    cases there.symm.trans found
    cases committed
  | revoked _ retired =>
    rw [retired, MasterState.retire_objects, Finmap.lookup_insert] at found
    cases found
    cases committed

/-- The last event of a held reservation is its `put_start`, or one after which it was held already. -/
theorem Holds.last (split : past ++ [event] = before ++ new) (holds : Holds key.1 key.2 len new) :
    (past = before ∧ ∃ replicas, event = ⟨.putStart key.1 key.2 len replicaCount, .ok replicas⟩) ∨
      ∃ earlier, past = before ++ earlier ∧ Holds key.1 key.2 len earlier ∧ event.Lingers := by
  obtain ⟨replicas, middle, rfl, lingers⟩ := holds
  rcases List.eq_nil_or_concat middle with rfl | ⟨middle, last, rfl⟩
  · obtain ⟨rfl, same⟩ := List.append_inj' split rfl
    exact .inl ⟨rfl, replicas, List.singleton_inj.mp same⟩
  · rw [List.concat_eq_append, ← List.cons_append, ← List.append_assoc] at split
    obtain ⟨rfl, same⟩ := List.append_inj' split rfl
    cases List.singleton_inj.mp same
    rw [List.concat_eq_append] at lingers
    refine .inr ⟨_, rfl, ⟨replicas, middle, rfl, fun other member => ?_⟩, ?_⟩
    · exact lingers other (List.mem_append_left _ member)
    · exact lingers _ (List.mem_append_right _ (List.mem_singleton_self _))

end

/-- The tenant of the key gets the reserved bytes back. -/
def Releases (key : ObjectKey) (len : Nat) (s s' : MasterState) : Prop :=
  s'.quotas.lookup key.1 = (s.quotas.lookup key.1).map (·.releaseDram len)

theorem releases_of_retire {key : ObjectKey} {s : MasterState} {object : CacheObjectMeta} {len : Nat}
    (status : object.status = .reserving) (same : object.len = len) (target : ObjectStatus) :
    Releases key len s (s.retire key object target) := by
  have reserved : quotaReservedBytes object = len := by simp [quotaReservedBytes, status, ObjectStatus.live, same]
  simp [Releases, MasterState.retire, reserved, MasterState.releaseTenantQuota_lookup]

section
variable {S : Type}

/-- A request beside a local master. -/
abbrev SoloPool (S : Type) := Pool Unit (CacheWorld S) Call Call.Reply (GatewayResult GatewayResponse)

abbrev SoloPool.own (s : SoloPool S) : List GatewayEvent := Pool.own s.history ()

abbrev SoloLabel := Pool.Label Unit MasterOp Call Call.Reply

abbrev SoloStep (client : StoreClient S) : SoloPool S → SoloLabel → SoloPool S → Prop :=
  Pool.Step (CacheWorld.soloServer client)

/-- Nobody else ends a reservation of the key. -/
def LeavesAlone (key : ObjectKey) : SoloLabel → Prop
  | .act op => ¬ op.EndsAt key
  | .call _ _ => True

/-- The reservation of the key was taken back, and its quota with it. -/
structure TakenBack (client : StoreClient S) (init : SoloPool S) (key : ObjectKey) (len : Nat) (trace : List SoloLabel)
    (s : SoloPool S) : Prop where
  ended : ∃ object, s.world.master.objects.lookup key = some object ∧ object.status = .revoked
  released : ∃ earlier middle next,
    Run.At (SoloStep client) init trace s earlier middle (.call () ⟨.putRevoke key.1 key.2, .ok ()⟩) next ∧
      Releases key len middle.world.master next.world.master

/-- The object of a reservation stays as it was put while the request holds it, until it takes it back. -/
structure Keeps (client : StoreClient S) (init : SoloPool S) (key : ObjectKey) (trace : List SoloLabel)
    (s : SoloPool S) : Prop where
  held : ∀ before new len, s.own = before ++ new → Holds key.1 key.2 len new →
    ∃ object, s.world.master.objects.lookup key = some object ∧ object.status = .reserving ∧ object.len = len
  revoked : ∀ before new after len reply, s.own = before ++ new ++ ⟨.putRevoke key.1 key.2, reply⟩ :: after →
    Holds key.1 key.2 len new → TakenBack client init key len trace s

variable {client : StoreClient S} {init s s' : SoloPool S} {key : ObjectKey} {trace : List SoloLabel} {len : Nat}

theorem TakenBack.step {l : SoloLabel} (h : TakenBack client init key len trace s) (last : SoloStep client s l s')
    (away : LeavesAlone key l) : TakenBack client init key len (trace ++ [l]) s' := by
  obtain ⟨⟨object, found, dead⟩, earlier, middle, next, taken, released⟩ := h
  refine ⟨?_, earlier, middle, next, taken.append (Run.start.snoc last), released⟩
  cases last with
  | call _ served => exact served.affects.revoked_stays found dead
  | act acted =>
    have quiet := MasterState.Step.eventsOf_uncommitted acted found (by rw [dead]; exact nofun) away
    obtain ⟨_, after⟩ := acted
    refine ⟨object, ?_, dead⟩
    simp only [after, (MasterState.lifecycle_moves _ _).lookup_of_quiet quiet, found]

theorem Keeps.step {l : SoloLabel} (run : Run (SoloStep client) init trace s) (h : Keeps client init key trace s)
    (last : SoloStep client s l s') (away : LeavesAlone key l) : Keeps client init key (trace ++ [l]) s' := by
  cases last with
  | @call _ request next reply world pending served =>
    have took : SoloStep client s (.call () ⟨request, reply⟩) _ := .call pending served
    have affects : Affects key s.world.master world.master ⟨request, reply⟩ := CacheWorld.ServesSolo.affects served
    constructor
    · intro before new len split holds
      rw [SoloPool.own, Pool.own_snoc_self] at split
      rcases holds.last split with ⟨_, replicas, same⟩ | ⟨earlier, held, holds, lingers⟩
      · rw [same] at affects
        cases affects with
        | kept idle _ => exact absurd ⟨rfl, replicas, rfl⟩ idle
        | reserved _ there => exact ⟨_, there, rfl, rfl⟩
      · obtain ⟨object, found, kept⟩ := h.held before earlier len held holds
        exact ⟨object, (affects.kept_of_lingers lingers).trans found, kept⟩
    · intro before new after len answer split holds
      rw [SoloPool.own, Pool.own_snoc_self] at split
      rcases List.eq_nil_or_concat after with rfl | ⟨after, final, rfl⟩
      · obtain ⟨held, same⟩ := List.append_inj' split rfl
        cases List.singleton_inj.mp same
        obtain ⟨object, found, reserving, size⟩ := h.held before new len held holds
        have solo : s.world.ServesSolo client (.putRevoke key.1 key.2) answer world := served
        obtain ⟨rfl, retired⟩ := solo.revokes found
        refine ⟨⟨{ object with status := .revoked }, ?_, rfl⟩, _, _, _, ⟨[], rfl, run, took, .start⟩, ?_⟩
        · simp [retired]
        · rw [retired]
          exact releases_of_retire reserving size _
      · rw [List.concat_eq_append, ← List.cons_append, ← List.append_assoc] at split
        obtain ⟨held, same⟩ := List.append_inj' split rfl
        exact (h.revoked before new after len answer held holds).step took trivial
  | @act op world acted =>
    have took : SoloStep client s (.act op) _ := .act acted
    constructor
    · intro before new len split holds
      obtain ⟨object, found, reserving, size⟩ := h.held before new len split holds
      have quiet := MasterState.Step.eventsOf_uncommitted acted found (by rw [reserving]; exact nofun) away
      obtain ⟨_, after⟩ := acted
      refine ⟨object, ?_, reserving, size⟩
      simp only [after, (MasterState.lifecycle_moves _ _).lookup_of_quiet quiet, found]
    · intro before new after len answer split holds
      exact (h.revoked before new after len answer split holds).step took away

/-- As long as nobody else ends it, a reservation is kept until the request takes it back. -/
theorem run_keeps {world : CacheWorld S} {program : Flow (GatewayResult GatewayResponse)}
    (run : Run (SoloStep client) (Pool.initial world fun _ => program) trace s)
    (away : ∀ l ∈ trace, LeavesAlone key l) : Keeps client (Pool.initial world fun _ => program) key trace s := by
  induction run with
  | start =>
    constructor
    · rintro before new len split ⟨replicas, middle, rfl, _⟩
      simp [Pool.initial, SoloPool.own] at split
    · intro before new after len reply split
      simp [Pool.initial, SoloPool.own] at split
  | snoc past last ih =>
    refine Keeps.step past (ih fun l member => away l (List.mem_append_left _ member)) last ?_
    exact away _ (List.mem_append_right _ (List.mem_singleton_self _))

end

/-! What the calls of a request say of its outcome. -/

namespace WriteOutcome
variable {tenantId named : TenantId} {cacheKey key : CacheKey} {bytes : List UInt8} {new : List GatewayEvent}
  {outcome : GatewayResult CacheWriteStatus}

/-- A `put_end` that succeeds comes after every replica was written. -/
theorem of_putEnd (h : WriteOutcome tenantId cacheKey bytes new outcome) (member : ⟨.putEnd named key, .ok ()⟩ ∈ new) :
    named = tenantId ∧ key = cacheKey ∧ outcome = .ok .committed ∧ ∃ replicas,
      ⟨.putStart tenantId cacheKey bytes.length replicaCount, .ok replicas⟩ ∈ new ∧
        ∀ replica ∈ replicas, CacheClient.Written tenantId cacheKey bytes new replica := by
  have unended {events : List GatewayEvent} (lingers : ∀ event ∈ events, GatewayEvent.Lingers event) :
      ⟨.putEnd named key, .ok ()⟩ ∉ events := fun member => by
    obtain ⟨err, ⟨⟩⟩ := lingers _ member
  cases h with
  | refused err => cases List.mem_singleton.mp member
  | @committed replicas writes lingers written =>
    rcases List.mem_append.mp member with before | last
    · rcases List.mem_cons.mp before with ⟨⟨⟩⟩ | before
      exact absurd before (unended lingers)
    · cases List.mem_singleton.mp last
      refine ⟨rfl, rfl, rfl, replicas, List.mem_append_left _ List.mem_cons_self, fun replica there => ?_⟩
      exact List.mem_append_left _ (List.mem_cons_of_mem _ (written replica there))
  | revoked reply err lingers =>
    rcases List.mem_append.mp member with before | last
    · rcases List.mem_cons.mp before with ⟨⟨⟩⟩ | before
      exact absurd before (unended lingers)
    · cases List.mem_singleton.mp last

/-- A reservation is committed, or held until it is taken back. -/
theorem of_putStart (h : WriteOutcome tenantId cacheKey bytes new outcome) {len count : Nat}
    {replicas : List ReplicaDescriptor} (member : ⟨.putStart named key len count, .ok replicas⟩ ∈ new) :
    (∃ named key, ⟨.putEnd named key, .ok ()⟩ ∈ new) ∨
      ∃ held reply, new = held ++ [⟨.putRevoke named key, reply⟩] ∧ Holds named key len held := by
  have unstarted {events : List GatewayEvent} (lingers : ∀ event ∈ events, GatewayEvent.Lingers event) :
      ⟨.putStart named key len count, .ok replicas⟩ ∉ events := fun member => lingers _ member
  cases h with
  | refused err => cases List.mem_singleton.mp member
  | committed => exact .inl ⟨tenantId, cacheKey, List.mem_append_right _ (List.mem_singleton_self _)⟩
  | @revoked _ middle reply err lingers =>
    rcases List.mem_append.mp member with before | last
    · rcases List.mem_cons.mp before with ⟨⟨⟩⟩ | before
      · exact .inr ⟨_, reply, rfl, replicas, middle, rfl, lingers⟩
      · exact absurd before (unstarted lingers)
    · cases List.mem_singleton.mp last

theorem ends (h : WriteOutcome tenantId cacheKey bytes new outcome) (committed : writeStatusOf outcome = .committed) :
    ⟨.putEnd tenantId cacheKey, .ok ()⟩ ∈ new := by
  cases h with
  | refused | revoked => cases committed
  | committed => exact List.mem_append_right _ (List.mem_singleton_self _)

end WriteOutcome

theorem Artifact.grow [JsonWriter] [JsonReader] {past : List GatewayEvent} {bytes : List UInt8} (h : Artifact past bytes)
    (more : List GatewayEvent) : Artifact (past ++ more) bytes := by
  rcases h with ⟨request, body, member, rfl⟩ | ⟨request, stream, captured, member, captures, rfl⟩
  · exact .inl ⟨request, body, List.mem_append_left _ member, rfl⟩
  · exact .inr ⟨request, stream, captured, List.mem_append_left _ member, captures, rfl⟩

/-- The request is answered, and told that its answer was committed. -/
def SaysCommitted (result : GatewayResult GatewayResponse) : Prop :=
  ∃ response, result = .ok response ∧ response.SaysWrite .committed

theorem GatewayResponse.SaysWrite.unique {response : GatewayResponse} {writeStatus other : CacheWriteStatus}
    (h : response.SaysWrite writeStatus) (h' : response.SaysWrite other) : writeStatus = other := by
  have same : writeStatus.asHeaderValue = other.asHeaderValue := Option.some.inj (h.symm.trans h')
  revert same
  cases writeStatus <;> cases other <;> decide

theorem Untouched.not_mem {past : List GatewayEvent} (h : Untouched past) {call : Call} {reply : call.Reply}
    (changes : call.isChange = true) : ⟨call, reply⟩ ∉ past := fun member => by
  cases changes.symm.trans (h _ member)

namespace Concluded
variable [JsonWriter] [JsonReader] {writing : Prop} {tenantId named : TenantId} {cacheKey key : CacheKey}
  {past : List GatewayEvent} {result : GatewayResult GatewayResponse}

/-- The header tells whether `put_end` succeeded. -/
theorem committed_iff (h : Concluded writing tenantId cacheKey past result) :
    SaysCommitted result ↔ ∃ named key, ⟨.putEnd named key, .ok ()⟩ ∈ past := by
  cases h with
  | unwritten untouched header =>
    refine iff_of_false ?_ ?_
    · rintro ⟨response, answer, stated⟩
      obtain ⟨writeStatus, uncommitted, header⟩ := header response answer
      exact uncommitted (header.unique stated)
    · rintro ⟨named, key, member⟩
      exact untouched.not_mem rfl member
  | wrote writes split before after went artifact header =>
    constructor
    · rintro ⟨response, ⟨⟩, stated⟩
      rw [split]
      refine ⟨tenantId, cacheKey, List.mem_append_left _ (List.mem_append_right _ (went.ends (header.unique stated)))⟩
    · rintro ⟨named, key, member⟩
      rw [split, List.mem_append, List.mem_append] at member
      have ended := (member.resolve_right (after.not_mem rfl)).resolve_left (before.not_mem rfl)
      obtain ⟨_, _, rfl, _⟩ := went.of_putEnd ended
      exact ⟨_, rfl, header⟩

/-- What is committed is the whole answer of the vendor, on every reserved replica. -/
theorem of_putEnd (h : Concluded writing tenantId cacheKey past result)
    (member : ⟨.putEnd named key, .ok ()⟩ ∈ past) : named = tenantId ∧ writing ∧ ∃ bytes replicas,
      Artifact past bytes ∧ ⟨.putStart named key bytes.length replicaCount, .ok replicas⟩ ∈ past ∧
        ∀ replica ∈ replicas, CacheClient.Written named key bytes past replica := by
  cases h with
  | unwritten untouched _ => exact absurd member (untouched.not_mem rfl)
  | @wrote before new after bytes outcome response writes split untouched rest went artifact header =>
    rw [split, List.mem_append, List.mem_append] at member
    have ended := (member.resolve_right (rest.not_mem rfl)).resolve_left (untouched.not_mem rfl)
    obtain ⟨rfl, rfl, rfl, replicas, started, written⟩ := went.of_putEnd ended
    have within {event : GatewayEvent} (member : event ∈ new) : event ∈ past :=
      split ▸ List.mem_append_left _ (List.mem_append_right _ member)
    refine ⟨rfl, writes, bytes, replicas, ?_, within started, fun replica there => within (written replica there)⟩
    rw [split, List.append_assoc]
    exact artifact.grow _

/-- A reservation that is not committed is taken back while it is held. -/
theorem of_putStart (h : Concluded writing tenantId cacheKey past result) {len count : Nat}
    {replicas : List ReplicaDescriptor} (member : ⟨.putStart named key len count, .ok replicas⟩ ∈ past)
    (unsaid : ¬ SaysCommitted result) : ∃ before held reply after,
      past = before ++ held ++ ⟨.putRevoke named key, reply⟩ :: after ∧ Holds named key len held := by
  have unended := mt h.committed_iff.mpr unsaid
  cases h with
  | unwritten untouched _ => exact absurd member (untouched.not_mem rfl)
  | @wrote before new after bytes outcome response writes split untouched rest went artifact header =>
    rw [split, List.mem_append, List.mem_append] at member
    have started := (member.resolve_right (rest.not_mem rfl)).resolve_left (untouched.not_mem rfl)
    rcases went.of_putStart started with ⟨named, key, ended⟩ | ⟨held, reply, rfl, holds⟩
    · refine absurd ⟨named, key, ?_⟩ unended
      rw [split]
      exact List.mem_append_left _ (List.mem_append_right _ ended)
    · exact ⟨before, held, reply, after, by simp [split], holds⟩

end Concluded

section
variable [Sha256] [JsonWriter] [JsonReader] {S : Type} {client : StoreClient S} {request : GatewayRequest}
  {state : GatewayState} {world : CacheWorld S} {trace : List SoloLabel} {s : SoloPool S}
  {result : GatewayResult GatewayResponse}

/-- Only a whole answer of the vendor is committed, and the header tells the truth about it; what is
reserved and not committed is taken back. -/
theorem commits_whole_answers (run : Run (SoloStep client) (Pool.initial world fun _ => request.program state) trace s)
    (ended : s.threads () = .done result) :
    (SaysCommitted result ↔ ∃ tenantId cacheKey, ⟨.putEnd tenantId cacheKey, .ok ()⟩ ∈ s.own) ∧
    (∀ tenantId cacheKey, ⟨.putEnd tenantId cacheKey, .ok ()⟩ ∈ s.own →
      request.Stores state tenantId ∧ ∃ bytes replicas, Artifact s.own bytes ∧
        ⟨.putStart tenantId cacheKey bytes.length replicaCount, .ok replicas⟩ ∈ s.own ∧
        ∀ replica ∈ replicas, CacheClient.Written tenantId cacheKey bytes s.own replica) ∧
    (¬ SaysCommitted result →
      (∀ earlier middle event next,
        Run.At (SoloStep client) (Pool.initial world fun _ => request.program state) trace s earlier middle
          (.call () event) next →
        ∀ key object, next.world.master.objects.lookup key = some object → object.status = .committed →
          middle.world.master.objects.lookup key = some object) ∧
      ∀ tenantId cacheKey len count replicas, ⟨.putStart tenantId cacheKey len count, .ok replicas⟩ ∈ s.own →
        (∀ l ∈ trace, LeavesAlone (tenantId, cacheKey) l) →
        TakenBack client (Pool.initial world fun _ => request.program state) (tenantId, cacheKey) len trace s) := by
  obtain ⟨tenantId, cacheKey, concluded⟩ : ∃ tenantId cacheKey,
      Concluded (request.Stores state tenantId) tenantId cacheKey s.own result := by
    have met := Pool.run_meets (i := ()) (program_concluded request state) run
    rwa [ended] at met
  refine ⟨concluded.committed_iff, fun named key member => ?_, fun unsaid => ⟨?_, ?_⟩⟩
  · obtain ⟨rfl, stores, whole⟩ := concluded.of_putEnd member
    exact ⟨stores, whole⟩
  · rintro earlier middle event next ⟨later, split, _, step, _⟩ key object found committed
    have called : .call () event ∈ trace := split ▸ List.mem_append_right _ List.mem_cons_self
    cases step with
    | call _ served =>
      refine (served.affects.commits found committed).resolve_right fun ends => unsaid ?_
      rw [ends, ← Pool.run_history run, ← Pool.mem_own] at called
      exact concluded.committed_iff.mpr ⟨key.1, key.2, called⟩
  · intro named key len count replicas member away
    obtain ⟨before, held, reply, after, split, holds⟩ := concluded.of_putStart member unsaid
    exact (run_keeps run away).revoked before held after len reply split holds

end

private theorem solo_call {S : Type} {client : StoreClient S} {s : SoloPool S} (call : Call) (reply : call.Reply)
    {next : call.Reply → Flow (GatewayResult GatewayResponse)} {world : CacheWorld S}
    (pending : s.threads () = .call call next) (served : s.world.ServesSolo client call reply world) :
    SoloStep client s (.call () ⟨call, reply⟩)
      ⟨world, Function.update s.threads () (next reply), s.history ++ [((), ⟨call, reply⟩)]⟩ :=
  .call pending served

/-- A greeting that finds the singleflight group full stores its own answer. -/
theorem greeting_commits : ∃ s : SoloPool MemoryStore, ∃ result, s.threads () = .done result ∧ SaysCommitted result ∧
    ∃ tenantId cacheKey, ⟨.putEnd tenantId cacheKey, .ok ()⟩ ∈ s.own := by
  let _ := greetingDigests
  let _ := greetingTexts
  let _ := greetingReader
  have idle : Run (SoloStep localStoreClient)
    (Pool.initial (freshCache "store-0" 16 16) fun _ => greetingRequest.program openGateway) [] _ := .start
  have reserved := idle.snoc (solo_call (.resolveModelVersion "gpt-x") (.ok "gpt-x") greeting_program rfl)
    |>.snoc (solo_call (.getReplicaList _ _) _ rfl ⟨0, rfl, rfl⟩)
    |>.snoc (solo_call (.begin _) (.ok .overCapacity) rfl rfl)
    |>.snoc (solo_call (.recordSingleflight _) () rfl rfl)
    |>.snoc (solo_call (.complete _) (.ok (.string "hi")) rfl rfl)
    |>.snoc (solo_call .recordVendorCall () rfl rfl)
    |>.snoc (solo_call (.putStart _ _ _ _) _ rfl ⟨rfl, rfl⟩)
  have run := reserved.snoc (solo_call (.writePreallocatedChunk _ _ _ _ _) _ rfl (.inl ⟨rfl, rfl⟩))
    |>.snoc (solo_call (.putEnd _ _) _ rfl ⟨rfl, rfl⟩)
    |>.snoc (solo_call (.recordCacheStatus _) () rfl rfl)
    |>.snoc (solo_call (.recordWrite _) () rfl rfl)
  have committed : SaysCommitted (.ok (.ok (.string "hi") .miss CacheWriteStatus.committed.asHeaderValue "vendor"
      (some greetingKey))) := ⟨_, rfl, (GatewayResponse.labelled_ok ..).write⟩
  exact ⟨_, _, rfl, committed, (commits_whole_answers run rfl).1.mp committed⟩

end Mooncache
