import Mooncache.Gateway.CacheServer
import Mooncache.Gateway.GatewayServer

/-! How far the leader of a flight has come with storing its object, and what that says
of the cache, of the history and of what the other requests may know. -/
namespace Mooncache
open Program

/-- The replies of the vendor's `complete`, in order. -/
def vendorCalls {I : Type} (history : List (I × GatewayEvent)) : List (Except VendorError Value) :=
  history.filterMap fun
    | (_, ⟨.complete _, reply⟩) => some reply
    | _ => none

/-- Calls that make the body known. -/
def Call.tellsBody : Call → Bool
  | complete _ | publish _ _ => true
  | _ => false

/-- How far the leader of the flight has come. -/
inductive Progress where
  | opened
  | answered (body : Value)
  | reserved (body : Value) (replica : ReplicaDescriptor)
  | written (body : Value) (replica : ReplicaDescriptor)
  | committed (body : Value) (replica : ReplicaDescriptor)

def Progress.body : Progress → Option Value
  | opened => none
  | answered body | reserved body _ | written body _ | committed body _ => some body

def Progress.isCommitted : Progress → Bool
  | committed _ _ => true
  | _ => false

/-- What a request knows: where the object lies, its body, or how far it has led the flight. -/
inductive Knowledge where
  | nothing
  | located (handle : ChunkHandle)
  | holds (body : Value)
  | leads (progress : Progress)

def Knowledge.isLeader : Knowledge → Bool
  | leads _ => true
  | _ => false

section
variable [JsonWriter]

/-- The master and the store have room and quota for this body. -/
def HasRoom (initial : CacheWorld MemoryStore) (key : SingleflightKey) (body : Value) : Prop :=
  ∃ replicas master, initial.master.putStart key.tenantId key.cacheKey (toVec body).length replicaCount =
    (.ok replicas, master) ∧ ∀ replica ∈ replicas, initial.stores.Fits (.fromReplica replica)

/-- The body's one replica is reserved, inside the store. -/
structure PutStarted (initial : CacheWorld MemoryStore) (key : SingleflightKey) (body : Value)
    (replica : ReplicaDescriptor) (master : MasterState) : Prop where
  fits : initial.stores.Fits (.fromReplica replica)
  len : (toVec body).length = replica.len
  object : master.objects.lookup (key.tenantId, key.cacheKey) =
    some ⟨key.tenantId, key.cacheKey, (toVec body).length, .reserving, [replica], false, none⟩

theorem HasRoom.started {initial : CacheWorld MemoryStore} {key : SingleflightKey} {body : Value}
    (h : HasRoom initial key body) : ∃ replica master,
      initial.master.putStart key.tenantId key.cacheKey (toVec body).length replicaCount = (.ok [replica], master) ∧
        PutStarted initial key body replica master := by
  obtain ⟨replicas, master, started, fits⟩ := h
  rcases initial.master.putStart_cases key.tenantId key.cacheKey (toVec body).length replicaCount with
    ⟨_, he⟩ | ⟨reserved, allocations, after, indexes, _, _, _, _, _, one, spec, he⟩
  · rw [started] at he
    cases he
  · rw [started] at he
    cases he
    obtain ⟨index, rfl⟩ := List.length_eq_one_iff.mp one
    have extents := spec.extents
    obtain ⟨allocation, rfl⟩ := List.length_eq_one_iff.mp extents.length_eq.symm
    obtain ⟨_, _, rfl⟩ : ∃ segment : MountedSegment, _ ∧ _ := ((List.forall₂_cons.mp extents).1).imp fun _ h => h.2
    exact ⟨_, _, started, fits _ (List.mem_singleton_self _), rfl, Finmap.lookup_insert _⟩

variable (initial : CacheWorld MemoryStore) (key : SingleflightKey)

variable [Sha256] in
/-- What the leader has left in the master and the store. -/
def LeftBy : Option Progress → CacheWorld MemoryStore → Prop
  | none, cache | some .opened, cache => cache = initial
  | some (.answered body), cache => cache = initial ∧ HasRoom initial key body
  | some (.reserved body replica), cache =>
    PutStarted initial key body replica cache.master ∧ cache.stores = initial.stores
  | some (.written body replica), cache => PutStarted initial key body replica cache.master ∧
    cache.stores.readChunk (.fromReplica replica) = .ok (toVec body)
  | some (.committed body replica), cache =>
    (∃ object, cache.master.objects.lookup (key.tenantId, key.cacheKey) = some object ∧ object.status = .committed ∧
      object.replicas = [replica]) ∧ cache.stores.readChunk (.fromReplica replica) = .ok (toVec body)

variable {I : Type} [Sha256]

/-- What has happened once the leader has come this far. -/
structure Tracks (s : GatewayPool I (CacheWorld MemoryStore)) (progress : Option Progress) : Prop where
  cache : LeftBy initial key progress s.world.cache
  calls : vendorCalls s.history = (progress.bind Progress.body).toList.map .ok
  begun : progress ≠ none → ∃ i leader, (i, ⟨.begin key, .ok (.leader leader)⟩) ∈ s.history
  published : ∀ i leader result, (i, ⟨.publish leader result, ()⟩) ∈ s.history → ∃ body replica response,
    progress = some (.committed body replica) ∧ result = .ok response ∧ response.statusCode = 200 ∧
      response.body = body

end

def Knows (progress : Option Progress) : Knowledge → Prop
  | .nothing => True
  | .located handle => ∃ body replica, progress = some (.committed body replica) ∧ handle = .fromReplica replica
  | .holds body => progress.bind Progress.body = some body
  | .leads own => progress = some own

/-- The requests' knowledge is true, and one of them leads at most. -/
def Coalesced {I : Type} [Sha256] [JsonWriter] (initial : CacheWorld MemoryStore) (key : SingleflightKey)
    (s : GatewayPool I (CacheWorld MemoryStore)) (knowledge : I → Knowledge) : Prop :=
  ∃ progress, Tracks initial key s progress ∧ (∀ i, Knows progress (knowledge i)) ∧
    ∀ i j, (knowledge i).isLeader = true → (knowledge j).isLeader = true → i = j

/-- A lookup finds the object once it is committed, and changes nothing before. -/
theorem LeftBy.lookup [Sha256] [JsonWriter] {initial : CacheWorld MemoryStore} {key : SingleflightKey}
    {progress : Option Progress} {cache : CacheWorld MemoryStore}
    (absent : initial.master.objects.lookup (key.tenantId, key.cacheKey) = none)
    (left : LeftBy initial key progress cache) (nowMs : Nat) :
    cache.master.getReplicaList key.tenantId key.cacheKey nowMs = (.error .notFound, cache.master) ∨
    ∃ body replica list master, progress = some (.committed body replica) ∧
      cache.master.getReplicaList key.tenantId key.cacheKey nowMs = (.ok list, master) ∧
      list.replicas = [replica] ∧ master.objects = cache.master.objects := by
  rcases cache.master.getReplicaList_cases key.tenantId key.cacheKey nowMs with
    missed | ⟨object, lease, leases, sequence, found, committed, he⟩
  · exact .inl missed
  · have started {body : Value} {replica : ReplicaDescriptor}
        (h : PutStarted initial key body replica cache.master) : False := by
      cases h.object.symm.trans found
      cases committed
    rcases progress with _ | _ | body | ⟨body, replica⟩ | ⟨body, replica⟩ | ⟨body, replica⟩
    · rw [show cache = initial from left, absent] at found
      cases found
    · rw [show cache = initial from left, absent] at found
      cases found
    · rw [left.1, absent] at found
      cases found
    · exact (started left.1).elim
    · exact (started left.1).elim
    · obtain ⟨⟨known, present, _, replicas⟩, _⟩ := left
      cases present.symm.trans found
      exact .inr ⟨body, replica, _, _, rfl, he, replicas, rfl⟩

section
variable {I : Type} [DecidableEq I] [Sha256] [JsonWriter] {initial : CacheWorld MemoryStore}
  {key : SingleflightKey} {s s' : GatewayPool I (CacheWorld MemoryStore)} {progress after : Option Progress}
  {own further : Progress} {knowledge : I → Knowledge} {i : I} {event : GatewayEvent}

omit [DecidableEq I] in
/-- A call of the leader or of another, apart from `complete` and `publish`. -/
theorem Tracks.next (h : Tracks initial key s progress) (history : s'.history = s.history ++ [(i, event)])
    (other : event.request.tellsBody = false)
    (cache : LeftBy initial key after s'.world.cache) (body : after.bind Progress.body = progress.bind Progress.body)
    (begun : after ≠ none → progress ≠ none ∨ ∃ leader, event = ⟨.begin key, .ok (.leader leader)⟩)
    (still : ∀ body replica, progress = some (.committed body replica) → after = progress) :
    Tracks initial key s' after where
  cache := cache
  calls := by
    have none : vendorCalls [(i, event)] = [] := by
      obtain ⟨call, reply⟩ := event
      cases call <;> first | rfl | cases other
    rw [history, body, ← h.calls]
    exact (List.filterMap_append ..).trans ((congrArg _ none).trans (List.append_nil _))
  begun some := by
    rw [history]
    rcases begun some with led | ⟨leader, rfl⟩
    · obtain ⟨j, leader, member⟩ := h.begun led
      exact ⟨j, leader, List.mem_append_left _ member⟩
    · exact ⟨i, leader, List.mem_append_right _ (List.mem_singleton_self _)⟩
  published j leader result member := by
    rw [history] at member
    rcases List.mem_append.mp member with member | last
    · obtain ⟨body, replica, response, committed, told⟩ := h.published j leader result member
      exact ⟨body, replica, response, (still body replica committed).trans committed, told⟩
    · cases List.mem_singleton.mp last
      cases other

omit [Sha256] [JsonWriter] in
/-- The thread that made the call learns something, and the others know what they knew. -/
theorem Knows.update {after : Knowledge} (knows : ∀ j, Knows progress (knowledge j)) (learnt : Knows progress after)
    (j : I) : Knows progress (Function.update knowledge i after j) := by
  rcases eq_or_ne j i with rfl | hne
  · rwa [Function.update_self]
  · rw [Function.update_of_ne hne]
    exact knows j

omit [DecidableEq I] [Sha256] [JsonWriter] in
/-- Before the flight there is nothing to know. -/
theorem Knows.nothing {known : Knowledge} (h : Knows none known) : known = .nothing := by
  cases known with
  | nothing => rfl
  | located handle =>
    obtain ⟨_, _, ⟨⟩, _⟩ := h
  | holds body => cases h
  | leads own => cases h

omit [DecidableEq I] [Sha256] [JsonWriter] in
theorem Knows.led {known : Knowledge} (h : Knows progress known) (leads : known = .leads own) :
    progress = some own := by
  subst leads
  exact h

omit [Sha256] [JsonWriter] in
private theorem alone_update {after : Knowledge}
    (alone : ∀ j k, (knowledge j).isLeader = true → (knowledge k).isLeader = true → j = k)
    (first : after.isLeader = true → ∀ j, (knowledge j).isLeader = true → j = i) (j k : I)
    (hj : (Function.update knowledge i after j).isLeader = true)
    (hk : (Function.update knowledge i after k).isLeader = true) : j = k := by
  rcases eq_or_ne j i with hj' | hj' <;> rcases eq_or_ne k i with hk' | hk'
  · rw [hj', hk']
  · rw [hj', Function.update_self] at hj
    rw [Function.update_of_ne hk'] at hk
    exact absurd (first hj k hk) hk'
  · rw [hk', Function.update_self] at hk
    rw [Function.update_of_ne hj'] at hj
    exact absurd (first hk j hj) hj'
  · rw [Function.update_of_ne hj'] at hj
    rw [Function.update_of_ne hk'] at hk
    exact alone j k hj hk

/-- A call after which the object is where it was, by a thread that does not lead. -/
theorem Coalesced.learn {learnt : Knowledge} (tracks : Tracks initial key s' progress)
    (knows : ∀ j, Knows progress (knowledge j))
    (alone : ∀ j k, (knowledge j).isLeader = true → (knowledge k).isLeader = true → j = k)
    (known : Knows progress learnt) (follows : learnt.isLeader = false) :
    Coalesced initial key s' (Function.update knowledge i learnt) :=
  ⟨progress, tracks, Knows.update knows known, alone_update alone (by simp [follows])⟩

/-- The first request to ask for a flight leads it. -/
theorem Coalesced.opens (tracks : Tracks initial key s' (some .opened)) (knows : ∀ j, Knows none (knowledge j)) :
    Coalesced initial key s' (Function.update knowledge i (.leads .opened)) := by
  have idle (j : I) : knowledge j = .nothing := (knows j).nothing
  have unled (j : I) : (knowledge j).isLeader = false := by rw [idle j]; rfl
  refine ⟨some .opened, tracks, Knows.update (fun j => ?_) ?_, alone_update (by simp [unled]) (by simp [unled])⟩
  · rw [idle j]
    trivial
  · rfl

/-- The leader comes further. -/
theorem Coalesced.advance (tracks : Tracks initial key s' (some further)) (knows : ∀ j, Knows (some own) (knowledge j))
    (alone : ∀ j k, (knowledge j).isLeader = true → (knowledge k).isLeader = true → j = k)
    (mine : knowledge i = .leads own) (body : ∀ body, own.body = some body → further.body = some body)
    (uncommitted : own.isCommitted = false) :
    Coalesced initial key s' (Function.update knowledge i (.leads further)) := by
  refine ⟨some further, tracks, fun j => ?_, alone_update alone fun _ j led => alone j i led (by rw [mine]; rfl)⟩
  rcases eq_or_ne j i with rfl | hne
  · rw [Function.update_self]
    rfl
  · rw [Function.update_of_ne hne]
    have known := knows j
    cases held : knowledge j <;> rw [held] at known
    · trivial
    · obtain ⟨_, _, committed, _⟩ := known
      cases Option.some.inj committed
      cases uncommitted
    · exact body _ known
    · exact absurd (alone j i (by rw [held]; rfl) (by rw [mine]; rfl)) hne

end

end Mooncache
