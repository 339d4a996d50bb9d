import Mooncache.Foundation.Crashes
import Mooncache.Store.Agreement
import Mooncache.Store.Restart

/-! Writes and reads side by side on a node that restarts now and then: a read returns the last
bytes that were acknowledged before it began, or later ones. -/
namespace Mooncache

/-- A request as a program, on a node with this SSD tier. -/
def NodeRequest.program (ssd : Option SsdStore) : NodeRequest → NodeProgram (Except StoreNodeError NodeResponse)
  | .allocateAndWrite len data => do
    return (← StoreNode.allocateAndWrite len data).mapError .store |>.map .allocated
  | .writePreallocated handle bytes tenantId cacheKey => do
    return (← StoreNode.writePreallocated ssd handle bytes tenantId cacheKey).map fun () => .written
  | .readChunk handle tenantId cacheKey => do
    return (← StoreNode.readChunk ssd handle tenantId cacheKey).map .read

namespace StoredObject

def identity (object : StoredObject) : String × String := (object.tenantId, object.cacheKey)

def found (object : StoredObject) (data : List UInt8) : NodeEvent := ⟨.readChunk object.handle, .ok data⟩

def missed (object : StoredObject) (err : StoreError) : NodeEvent := ⟨.readChunk object.handle, .error err⟩

def promoted (ssd : SsdStore) (object : StoredObject) (data : List UInt8) : NodeEvent :=
  ⟨.promoteToDram ssd object.tenantId object.cacheKey, .ok data⟩

def unpromoted (ssd : SsdStore) (object : StoredObject) (err : SsdError) : NodeEvent :=
  ⟨.promoteToDram ssd object.tenantId object.cacheKey, .error err⟩

def refilled (object : StoredObject) (data : List UInt8) (result : StoreResult Unit) : NodeEvent :=
  ⟨.writePreallocatedChunk object.handle data, result⟩

/-- The calls of a read and what it has done before each. -/
inductive Calls (ssd : SsdStore) (object : StoredObject) : List NodeEvent → NodeCall → Prop
  | readChunk : Calls ssd object [] (.readChunk object.handle)
  | promoteToDram (err : StoreError) :
      Calls ssd object [object.missed err] (.promoteToDram ssd object.tenantId object.cacheKey)
  | writePreallocatedChunk (err : StoreError) (data : List UInt8) :
      Calls ssd object [object.missed err, object.promoted ssd data] (.writePreallocatedChunk object.handle data)

/-- How a read ends, and what it has done by then. -/
inductive Finished (ssd : SsdStore) (object : StoredObject) :
    List NodeEvent → Except StoreNodeError NodeResponse → Prop
  | dram (data : List UInt8) : Finished ssd object [object.found data]
      (.ok (.read ⟨object.handle.offset, object.handle.len, "dram", data⟩))
  | ssd (err : StoreError) (data : List UInt8) :
      Finished ssd object [object.missed err, object.promoted ssd data, object.refilled data (.ok ())]
        (.ok (.read ⟨object.handle.offset, object.handle.len, "ssd", data⟩))
  | unread (err : StoreError) : StoreNode.missingInDram err = false →
      Finished ssd object [object.missed err] (.error (.store err))
  | unpromoted (err : StoreError) (failure : SsdError) :
      Finished ssd object [object.missed err, object.unpromoted ssd failure] (.error (.ssd failure))
  | unfilled (err : StoreError) (data : List UInt8) (failure : StoreError) :
      Finished ssd object [object.missed err, object.promoted ssd data, object.refilled data (.error failure)]
        (.error (.store failure))

theorem readChunk_meets (ssd : SsdStore) (object : StoredObject) :
    (StoreNode.readChunk (some ssd) object.handle (some object.tenantId) (some object.cacheKey)).Meets (object.Calls ssd)
      (fun past result => object.Finished ssd past (result.map .read)) [] := by
  refine ⟨.readChunk, fun reply => ?_⟩
  cases reply with
  | ok data => exact .dram data
  | error err =>
    cases err
    case invalidHandle | unwrittenChunk =>
      refine ⟨.promoteToDram _, fun promotion => ?_⟩
      cases promotion with
      | error failure => exact .unpromoted _ failure
      | ok data =>
        refine ⟨.writePreallocatedChunk _ data, fun fill => ?_⟩
        cases fill with
        | error failure => exact .unfilled _ data failure
        | ok => exact .ssd _ data
    all_goals exact .unread _ rfl

end StoredObject

def NodeWrite.object (w : NodeWrite) : StoredObject := ⟨w.handle, w.tenantId, w.cacheKey⟩

/-- A write or a read under an identity. -/
inductive NodeJob where
  | write (w : NodeWrite)
  | read (object : StoredObject)

namespace NodeJob

def object : NodeJob → StoredObject
  | write w => w.object
  | read object => object

def request : NodeJob → NodeRequest
  | write w => .writePreallocated w.handle w.bytes (some w.tenantId) (some w.cacheKey)
  | read object => .readChunk object.handle (some object.tenantId) (some object.cacheKey)

def program (ssd : SsdStore) (job : NodeJob) : NodeProgram (Except StoreNodeError NodeResponse) :=
  job.request.program (some ssd)

def bytes : NodeJob → List UInt8
  | write w => w.bytes
  | read _ => []

def Writes : NodeJob → StoredObject → Prop
  | write w, object => w.object = object
  | read _, _ => False

instance (job : NodeJob) (object : StoredObject) : Decidable (job.Writes object) :=
  match job with
  | write _ => inferInstanceAs (Decidable (_ = _))
  | read _ => inferInstanceAs (Decidable False)

def Calls (ssd : SsdStore) : NodeJob → List NodeEvent → NodeCall → Prop
  | write w => w.Calls ssd
  | read object => object.Calls ssd

def Finished (ssd : SsdStore) : NodeJob → List NodeEvent → Except StoreNodeError NodeResponse → Prop
  | write w, past, result => ∀ response, result = .ok response →
    response = .written ∧ past = [w.filledDram, w.persisted ssd, w.recorded]
  | read object, past, result => object.Finished ssd past result

theorem program_meets (ssd : SsdStore) (job : NodeJob) :
    (job.program ssd).Meets (job.Calls ssd) (job.Finished ssd) [] := by
  cases job with
  | write w =>
    refine (w.program_meets ssd).bind fun past result finished response written => ?_
    cases result with
    | error err => cases written
    | ok =>
      cases written
      exact ⟨rfl, finished rfl⟩
  | read object => exact (object.readChunk_meets ssd).bind fun past result finished => finished

theorem object_of_writes {job : NodeJob} {object : StoredObject} (h : job.Writes object) : job.object = object := by
  cases job with
  | write w => exact h
  | read other => cases h

end NodeJob

/-- A node and its requests, some of which a restart has stopped. -/
abbrev NodeSystem (I : Type) := CrashPool I StoreNodeState NodeCall NodeCall.Reply (Except StoreNodeError NodeResponse)

abbrev NodeLabel (I : Type) := Pool.Label I (Option Empty) NodeCall NodeCall.Reply

namespace NodeSystem
open StoreNodeState (nodeServer)
variable {I : Type} {calls : I → NodeJob} {object : StoredObject} {stage : NodeStage} {i : I} {event : NodeEvent}

/-- A write of the object changes the stage. -/
def changes (calls : I → NodeJob) (object : StoredObject) (stage : NodeStage) (i : I) (event : NodeEvent) : Bool :=
  decide (event.stage = some stage ∧ (calls i).Writes object)

/-- Every identity has one handle, and the handles of two identities are disjoint. -/
def Placed (calls : I → NodeJob) : Prop := ∀ i j, (calls i).object ≠ (calls j).object →
  (calls i).object.identity ≠ (calls j).object.identity ∧
    ¬ (calls i).object.handle.Overlaps (calls j).object.handle

/-- DRAM and the recorded sizes are lost; the files stay. -/
def Restarts (s s' : StoreNodeState) : Prop := ∃ ssd, s.ssd = some ssd ∧
  StoreNodeState.withSsd s.dram.capacity ssd.root s.ssdBytesCapacity ssd.cipher s.files none = .ok s'

/-- An empty node over an empty root, and no request has begun. -/
def start (ssd : SsdStore) (calls : I → NodeJob) (capacity ssdBytesCapacity : Nat) : NodeSystem I :=
  CrashPool.initial ⟨.withCapacity capacity, some ssd, ∅, ssdBytesCapacity, ∅⟩ fun i => (calls i).program ssd

theorem changes_eq_true :
    changes calls object stage i event = true ↔ event.stage = some stage ∧ (calls i).Writes object := by
  simp [changes]

theorem changes_of_stage (h : event.stage ≠ some stage) : changes calls object stage i event = false := by
  simp [changes, h]

theorem changes_of_object (h : (calls i).object ≠ object) : changes calls object stage i event = false := by
  simp only [changes, decide_eq_false_iff_not, not_and]
  exact fun _ writes => h (NodeJob.object_of_writes writes)

variable [DecidableEq I] [Sha256] [ChaCha20Poly1305]

abbrev Step : NodeSystem I → NodeLabel I → NodeSystem I → Prop := CrashPool.Step nodeServer Restarts

/-- No write of an object overtakes another with other bytes on the way to SSD, and a read that
promotes an object replaces no other bytes that have come to DRAM since. -/
def InTurn {α : Type} (calls : I → NodeJob) (s : CrashPool I StoreNodeState NodeCall NodeCall.Reply α) :
    NodeLabel I → Prop
  | .call i ⟨.persistObject _ _ _ _, _⟩ =>
    Pool.NotOvertaken (changes calls (calls i).object .dram) (changes calls (calls i).object .ssd)
      (fun j => (calls j).bytes) s.pool.history i
  | .call i ⟨.writePreallocatedChunk handle data, _⟩ => ∀ object, calls i = .read object → ∀ found,
    s.pool.world.dram.readChunk handle = .ok found → found = data
  | _ => True

/-- DRAM has nothing of the object, and no write that put it there goes on. -/
def Lost (calls : I → NodeJob) (object : StoredObject) (s : NodeSystem I) : Prop :=
  s.pool.world.dram.allocations.lookup object.handle.offset = none ∧
    ∀ w ∈ Pool.order (changes calls object .dram) s.pool.history, w ∈ s.gone

/-- DRAM has the bytes of the write. A later one with other bytes has not come to SSD, and will not. -/
structure Holds (calls : I → NodeJob) (object : StoredObject) (s : NodeSystem I) (w : I) : Prop where
  member : w ∈ Pool.order (changes calls object .dram) s.pool.history
  read : s.pool.world.dram.readChunk object.handle = .ok (calls w).bytes
  current : ∀ j, [w, j].Sublist (Pool.order (changes calls object .dram) s.pool.history) →
    j ∈ Pool.order (changes calls object .ssd) s.pool.history ∨ j ∉ s.gone → (calls j).bytes = (calls w).bytes

/-- What the two tiers hold of every object. -/
structure Keeps (ssd : SsdStore) (calls : I → NodeJob) (s : NodeSystem I) : Prop where
  tier : s.pool.world.ssd = some ssd
  files : ∀ i, ssd.payload s.pool.world.files (calls i).object.identity =
    (Pool.latest (changes calls (calls i).object .ssd) s.pool.history).map fun j => (calls j).bytes
  persisted : ∀ object, Pool.Ordered (changes calls object .dram) (changes calls object .ssd)
    (fun j => (calls j).bytes) s.pool.history
  filled : ∀ object, ∀ w ∈ Pool.order (changes calls object .ssd) s.pool.history,
    w ∈ Pool.order (changes calls object .dram) s.pool.history
  fits : ∀ object, ∀ w ∈ Pool.order (changes calls object .dram) s.pool.history,
    s.pool.world.dram.Fits object.handle ∧ (calls w).bytes.length = object.handle.len
  dram : ∀ i, 0 < (calls i).object.handle.len →
    Lost calls (calls i).object s ∨ ∃ w, Holds calls (calls i).object s w
  promoting : ∀ r object err data, calls r = .read object → r ∉ s.gone →
    Pool.own s.pool.history r = [object.missed err, object.promoted ssd data] →
    s.pool.world.dram.allocations.lookup object.handle.offset = none →
    ssd.payload s.pool.world.files object.identity = some data
  promoted : ∀ r object err data, calls r = .read object →
    Pool.own s.pool.history r = [object.missed err, object.promoted ssd data] →
    ∃ w ∈ Pool.order (changes calls object .dram) s.pool.history, (calls w).bytes = data

variable {ssd : SsdStore} {s s' : NodeSystem I} {threads : I → NodeProgram (Except StoreNodeError NodeResponse)}

theorem start_keeps (ssd : SsdStore) (calls : I → NodeJob) (capacity ssdBytesCapacity : Nat) :
    (start ssd calls capacity ssdBytesCapacity).Keeps ssd calls where
  tier := rfl
  files i := by
    have empty : ssd.payload ∅ (calls i).object.identity = none := by
      unfold SsdStore.payload SsdStore.readObject
      cases ssd.objectPath (calls i).object.identity.1 (calls i).object.identity.2 <;> simp [Except.toOption]
    exact empty
  persisted object w last := by cases last
  filled object w member := by cases member
  fits object w member := by cases member
  dram i positive := .inl ⟨rfl, fun w member => by cases member⟩
  promoting r object err data _ _ own := by simp [start, CrashPool.initial, Pool.initial] at own
  promoted r object err data _ own := by simp [start, CrashPool.initial, Pool.initial] at own

/-- What is on SSD is what a write of the object last put there. -/
theorem Keeps.stored (h : s.Keeps ssd calls) {data : List UInt8}
    (payload : ssd.payload s.pool.world.files (calls i).object.identity = some data) :
    ∃ w, Pool.latest (changes calls (calls i).object .ssd) s.pool.history = some w ∧ (calls w).bytes = data := by
  rw [h.files, Option.map_eq_some_iff] at payload
  exact payload

/-- A call that changes neither tier. -/
theorem Keeps.quiet (h : s.Keeps ssd calls) {world : StoreNodeState} (unfilled : event.stage ≠ some .dram)
    (unstored : event.stage ≠ some .ssd) (tier : world.ssd = s.pool.world.ssd) (dram : world.dram = s.pool.world.dram)
    (files : ∀ id, ssd.payload world.files id = ssd.payload s.pool.world.files id)
    (promoting : ∀ object err data, calls i = .read object →
      Pool.own s.pool.history i ++ [event] = [object.missed err, object.promoted ssd data] →
      ssd.payload s.pool.world.files object.identity = some data) :
    Keeps ssd calls ⟨⟨world, threads, s.pool.history ++ [(i, event)]⟩, s.gone⟩ := by
  have filled (object : StoredObject) : Pool.order (changes calls object .dram) (s.pool.history ++ [(i, event)]) =
      Pool.order (changes calls object .dram) s.pool.history := Pool.order_snoc_of_not (changes_of_stage unfilled)
  have stored (object : StoredObject) : Pool.order (changes calls object .ssd) (s.pool.history ++ [(i, event)]) =
      Pool.order (changes calls object .ssd) s.pool.history := Pool.order_snoc_of_not (changes_of_stage unstored)
  constructor
  · exact tier.trans h.tier
  · intro k
    rw [files, h.files, Pool.latest_snoc_of_not (changes_of_stage unstored)]
  · intro object
    refine (h.persisted object).snoc (fun starts => ?_) fun finishes => ?_
    · rw [changes_of_stage unfilled] at starts
      cases starts
    · rw [changes_of_stage unstored] at finishes
      cases finishes
  · intro object
    rw [filled, stored]
    exact h.filled object
  · intro object
    rw [filled, dram]
    exact h.fits object
  · intro k positive
    refine (h.dram k positive).imp (fun lost => ?_) fun ⟨w, holds⟩ => ⟨w, ?_⟩
    · rw [Lost, filled, dram]
      exact lost
    · refine ⟨?_, ?_, ?_⟩
      · rw [filled]
        exact holds.member
      · exact dram ▸ holds.read
      · rw [filled, stored]
        exact holds.current
  · intro r object err data reads alive own missing
    rw [files]
    rcases eq_or_ne r i with rfl | hne
    · rw [Pool.own_snoc_self] at own
      exact promoting object err data reads own
    · rw [Pool.own_snoc_of_ne _ hne] at own
      exact h.promoting r object err data reads alive own (dram ▸ missing)
  · intro r object err data reads own
    rw [filled]
    rcases eq_or_ne r i with rfl | hne
    · rw [Pool.own_snoc_self] at own
      have payload := promoting object err data reads own
      obtain rfl : (calls r).object = object := by rw [reads, NodeJob.object]
      obtain ⟨w, last, bytes⟩ := h.stored payload
      exact ⟨w, h.filled _ w (Pool.mem_of_latest last), bytes⟩
    · rw [Pool.own_snoc_of_ne _ hne] at own
      exact h.promoted r object err data reads own

omit [DecidableEq I] [Sha256] [ChaCha20Poly1305] in
/-- Offsets of two objects differ. -/
private theorem Placed.offsets (placed : Placed calls) {j : I} (other : (calls j).object ≠ (calls i).object)
    (positive : 0 < (calls j).object.handle.len) (filled : 0 < (calls i).object.handle.len) :
    (calls j).object.handle.offset ≠ (calls i).object.handle.offset := by
  intro same
  refine (placed j i other).2 ⟨?_, ?_⟩ <;> omega

/-- Bytes put at the handle of one object change nothing for another. -/
theorem Keeps.elsewhere (h : s.Keeps ssd calls) (placed : Placed calls) {data : List UInt8} {j : I}
    (unstored : event.stage ≠ some .ssd) (length : data.length = (calls i).object.handle.len)
    (fits : s.pool.world.dram.Fits (calls i).object.handle) (other : (calls j).object ≠ (calls i).object)
    (positive : 0 < (calls j).object.handle.len) :
    let s' : NodeSystem I := ⟨⟨{ s.pool.world with dram := s.pool.world.dram.filled (calls i).object.handle data },
      threads, s.pool.history ++ [(i, event)]⟩, s.gone⟩
    Lost calls (calls j).object s' ∨ ∃ w, Holds calls (calls j).object s' w := by
  intro s'
  have filled : Pool.order (changes calls (calls j).object .dram) s'.pool.history =
      Pool.order (changes calls (calls j).object .dram) s.pool.history :=
    Pool.order_snoc_of_not (changes_of_object other.symm)
  have stored : Pool.order (changes calls (calls j).object .ssd) s'.pool.history =
      Pool.order (changes calls (calls j).object .ssd) s.pool.history :=
    Pool.order_snoc_of_not (changes_of_stage unstored)
  refine (h.dram j positive).imp (fun lost => ⟨?_, ?_⟩) fun ⟨w, holds⟩ => ⟨w, ?_, ?_, ?_⟩
  · have away := placed.offsets other positive fits.1
    exact (Finmap.lookup_insert_of_ne _ away).trans lost.1
  · rw [filled]
    exact lost.2
  · rw [filled]
    exact holds.member
  · have apart := (placed i j other.symm).2
    exact MemoryStore.readChunk_filled_of_disjoint length fits positive apart holds.read
  · rw [filled, stored]
    exact holds.current

/-- Bytes come to DRAM at the handle of an object, from a write of it or from SSD. -/
theorem Keeps.put (h : s.Keeps ssd calls) (placed : Placed calls) {data : List UInt8}
    (fill : event.stage = some .dram) (length : data.length = (calls i).object.handle.len)
    (fits : s.pool.world.dram.Fits (calls i).object.handle)
    (fresh : (calls i).Writes (calls i).object → Pool.own s.pool.history i = [] ∧ (calls i).bytes = data) :
    let s' : NodeSystem I := ⟨⟨{ s.pool.world with dram := s.pool.world.dram.filled (calls i).object.handle data },
      threads, s.pool.history ++ [(i, event)]⟩, s.gone⟩
    (∃ w, Holds calls (calls i).object s' w) → s'.Keeps ssd calls := by
  intro s' mine
  have unstored : event.stage ≠ some .ssd := by simp [fill]
  have stored (object : StoredObject) : Pool.order (changes calls object .ssd) s'.pool.history =
      Pool.order (changes calls object .ssd) s.pool.history := Pool.order_snoc_of_not (changes_of_stage unstored)
  have capacity : s'.pool.world.dram.capacity = s.pool.world.dram.capacity := MemoryStore.filled_capacity length fits
  have unpromoted {object : StoredObject} {err : StoreError} {bytes : List UInt8} :
      Pool.own s'.pool.history i ≠ [object.missed err, object.promoted ssd bytes] := by
    intro own
    rw [Pool.own_snoc_self] at own
    have ends : [object.missed err, object.promoted ssd bytes] = [object.missed err] ++ [object.promoted ssd bytes] := rfl
    cases List.singleton_inj.mp (List.append_inj' (own.trans ends) rfl).2
    cases fill
  constructor
  · exact h.tier
  · intro k
    rw [h.files, Pool.latest_snoc_of_not (changes_of_stage unstored)]
  · intro object
    refine (h.persisted object).snoc (fun starts member => ?_) fun finishes => ?_
    · have writes := (changes_eq_true.mp starts).2
      have same := NodeJob.object_of_writes writes
      obtain ⟨_, own, _⟩ := Pool.mem_order.mp member
      rw [(fresh (same.symm ▸ writes)).1] at own
      cases own
    · rw [changes_of_stage unstored] at finishes
      cases finishes
  · intro object w member
    rw [stored] at member
    rw [Pool.order_snoc]
    exact List.mem_append_left _ (h.filled object w member)
  · intro object w member
    rw [Pool.order_snoc, List.mem_append] at member
    rcases member with old | new
    · have before := h.fits object w old
      exact ⟨⟨before.1.1, before.1.2.1, capacity ▸ before.1.2.2⟩, before.2⟩
    · split at new
      · rename_i did
        cases List.mem_singleton.mp new
        have writes := (changes_eq_true.mp did).2
        have same := NodeJob.object_of_writes writes
        subst same
        exact ⟨⟨fits.1, fits.2.1, capacity ▸ fits.2.2⟩, (fresh writes).2 ▸ length⟩
      · cases new
  · intro k positive
    by_cases same : (calls k).object = (calls i).object
    · exact .inr (same ▸ mine)
    · exact h.elsewhere placed unstored length fits same positive
  · intro r object err bytes reads alive own missing
    rcases eq_or_ne r i with rfl | hne
    · exact (unpromoted own).elim
    · rw [Pool.own_snoc_of_ne _ hne] at own
      refine h.promoting r object err bytes reads alive own ?_
      by_cases here : object.handle.offset = (calls i).object.handle.offset
      · have there := here ▸ missing
        exact absurd ((Finmap.lookup_insert _).symm.trans there) (by simp)
      · exact (Finmap.lookup_insert_of_ne _ here).symm.trans missing
  · intro r object err bytes reads own
    rcases eq_or_ne r i with rfl | hne
    · exact (unpromoted own).elim
    · rw [Pool.own_snoc_of_ne _ hne] at own
      obtain ⟨w, member, same⟩ := h.promoted r object err bytes reads own
      rw [Pool.order_snoc]
      exact ⟨w, List.mem_append_left _ member, same⟩

/-- A write puts its bytes in DRAM. -/
theorem Keeps.fill (h : s.Keeps ssd calls) (placed : Placed calls) {write : NodeWrite} (writes : calls i = .write write)
    (own : Pool.own s.pool.history i = []) (length : write.bytes.length = write.handle.len)
    (fits : s.pool.world.dram.Fits write.handle) :
    Keeps ssd calls ⟨⟨{ s.pool.world with dram := s.pool.world.dram.filled write.handle write.bytes }, threads,
      s.pool.history ++ [(i, write.filledDram)]⟩, s.gone⟩ := by
  have object : (calls i).object = write.object := by rw [writes, NodeJob.object]
  have bytes : (calls i).bytes = write.bytes := by rw [writes, NodeJob.bytes]
  have handle : (calls i).object.handle = write.handle := congrArg StoredObject.handle object
  have did : changes calls (calls i).object .dram i write.filledDram = true :=
    changes_eq_true.mpr ⟨rfl, by rw [object, writes]; rfl⟩
  have unseen : i ∉ Pool.order (changes calls (calls i).object .dram) s.pool.history := by
    rw [Pool.mem_order, own]
    rintro ⟨_, member, _⟩
    cases member
  rw [← handle]
  refine h.put placed rfl (handle ▸ length) (handle ▸ fits) (fun _ => ⟨own, bytes⟩) ⟨i, ?_, ?_, fun j after => ?_⟩
  · rw [Pool.order_snoc_of_did did]
    exact List.mem_append_right _ List.mem_cons_self
  · rw [bytes]
    exact MemoryStore.readChunk_filled (handle ▸ length) (handle ▸ fits)
  · rw [Pool.order_snoc_of_did did] at after
    exact absurd after (Pool.none_after_last unseen)

/-- A read puts the object in DRAM again, where nothing of it is, or nothing else. -/
theorem Keeps.refill (h : s.Keeps ssd calls) (placed : Placed calls) {err : StoreError} {data : List UInt8}
    (reads : calls i = .read object) (alive : i ∉ s.gone)
    (own : Pool.own s.pool.history i = [object.missed err, object.promoted ssd data])
    (length : data.length = object.handle.len) (fits : s.pool.world.dram.Fits object.handle)
    (turn : ∀ found, s.pool.world.dram.readChunk object.handle = .ok found → found = data) :
    Keeps ssd calls ⟨⟨{ s.pool.world with dram := s.pool.world.dram.filled object.handle data }, threads,
      s.pool.history ++ [(i, object.refilled data (.ok ()))]⟩, s.gone⟩ := by
  obtain rfl : (calls i).object = object := by rw [reads, NodeJob.object]
  have idle : ¬ (calls i).Writes (calls i).object := by
    rw [reads]
    exact id
  have refilled : Pool.order (changes calls (calls i).object .dram)
      (s.pool.history ++ [(i, (calls i).object.refilled data (.ok ()))]) =
      Pool.order (changes calls (calls i).object .dram) s.pool.history :=
    Pool.order_snoc_of_not (by simp [changes, idle])
  have stored : Pool.order (changes calls (calls i).object .ssd)
      (s.pool.history ++ [(i, (calls i).object.refilled data (.ok ()))]) =
      Pool.order (changes calls (calls i).object .ssd) s.pool.history :=
    Pool.order_snoc_of_not (by simp [changes, idle])
  have read : (s.pool.world.dram.filled (calls i).object.handle data).readChunk (calls i).object.handle = .ok data :=
    MemoryStore.readChunk_filled length fits
  refine h.put placed rfl length fits (fun writes => absurd writes idle) ?_
  rcases h.dram i fits.1 with ⟨missing, stopped⟩ | ⟨w, holds⟩
  · obtain ⟨w, last, rfl⟩ := h.stored (h.promoting i _ err data reads alive own missing)
    have persisted := Pool.mem_of_latest last
    refine ⟨w, ?_, read, fun j after reached => ?_⟩
    · rw [refilled]
      exact h.filled _ w persisted
    · rw [refilled] at after
      rw [stored] at reached
      rcases reached with done | goes
      · exact h.persisted _ w last j after done
      · exact absurd (stopped j (after.subset (by simp))) goes
  · have same := turn _ holds.read
    refine ⟨w, ?_, same ▸ read, ?_⟩
    · rw [refilled]
      exact holds.member
    · rw [refilled, stored]
      exact holds.current

/-- A write puts its bytes on SSD. -/
theorem Keeps.persist (h : s.Keeps ssd calls) (decrypts : SsdStore.Decrypts) (placed : Placed calls) {write : NodeWrite}
    (writes : calls i = .write write) (alive : i ∉ s.gone) (own : Pool.own s.pool.history i = [write.filledDram])
    {env : PersistEnv} {files : Files}
    (stored : ssd.persistObject s.pool.world.files env write.tenantId write.cacheKey write.bytes = (.ok (), files))
    (turn : Pool.NotOvertaken (changes calls (calls i).object .dram) (changes calls (calls i).object .ssd)
      (fun j => (calls j).bytes) s.pool.history i) :
    Keeps ssd calls ⟨⟨{ s.pool.world with files := files }, threads, s.pool.history ++ [(i, write.persisted ssd)]⟩,
      s.gone⟩ := by
  have object : (calls i).object = write.object := by rw [writes, NodeJob.object]
  have identity : (calls i).object.identity = write.identity := by rw [object]; rfl
  have mine : (calls i).Writes (calls i).object := by
    rw [object, writes]
    exact rfl
  have came : i ∈ Pool.order (changes calls (calls i).object .dram) s.pool.history := by
    rw [Pool.mem_order, own]
    exact ⟨_, List.mem_cons_self, changes_eq_true.mpr ⟨rfl, mine⟩⟩
  have other (id : String × String) (away : id ≠ (calls i).object.identity) :
      ssd.payload files id = ssd.payload s.pool.world.files id := by
    have kept := SsdStore.readObject_persist_of_ne ssd s.pool.world.files env write.bytes none (identity ▸ away)
    rw [stored] at kept
    exact congrArg Except.toOption kept
  have filled (object : StoredObject) :
      Pool.order (changes calls object .dram) (s.pool.history ++ [(i, write.persisted ssd)]) =
      Pool.order (changes calls object .dram) s.pool.history := Pool.order_snoc_of_not (changes_of_stage (by simp))
  constructor
  · exact h.tier
  · intro k
    by_cases same : (calls k).object = (calls i).object
    · rw [same, Pool.latest_snoc, if_pos (changes_eq_true.mpr ⟨rfl, mine⟩), identity, Option.map_some, writes]
      exact congrArg Except.toOption (SsdStore.readObject_persist decrypts stored)
    · rw [Pool.latest_snoc_of_not (changes_of_object fun h => same h.symm), ← h.files]
      exact other _ (placed k i same).1
  · intro object
    refine (h.persisted object).snoc (fun starts => ?_) fun finishes => ?_
    · rw [changes_of_stage (by simp)] at starts
      cases starts
    · exact NodeJob.object_of_writes (changes_eq_true.mp finishes).2 ▸ turn
  · intro object w member
    rw [filled]
    rw [Pool.order_snoc, List.mem_append] at member
    rcases member with old | new
    · exact h.filled object w old
    · split at new
      · rename_i did
        cases List.mem_singleton.mp new
        exact NodeJob.object_of_writes (changes_eq_true.mp did).2 ▸ came
      · cases new
  · intro object
    rw [filled]
    exact h.fits object
  · intro k positive
    refine (h.dram k positive).imp (fun lost => ?_) fun ⟨w, holds⟩ => ⟨w, ?_, holds.read, fun j after reached => ?_⟩
    · rw [Lost, filled]
      exact lost
    · rw [filled]
      exact holds.member
    · rw [filled] at after
      refine holds.current j after (reached.elim (fun done => ?_) .inr)
      rw [Pool.order_snoc, List.mem_append] at done
      rcases done with old | new
      · exact .inl old
      · split at new
        · exact .inr (List.mem_singleton.mp new ▸ alive)
        · cases new
  · intro r object err data reads goes ownReads missing
    have hne : r ≠ i := by
      rintro rfl
      cases reads.symm.trans writes
    rw [Pool.own_snoc_of_ne _ hne] at ownReads
    have before := h.promoting r object err data reads goes ownReads missing
    obtain rfl : (calls r).object = object := by rw [reads, NodeJob.object]
    by_cases same : (calls r).object = (calls i).object
    · rw [same] at missing
      rcases h.dram i (h.fits _ i came).1.1 with ⟨_, stopped⟩ | ⟨w, holds⟩
      · exact absurd (stopped i came) alive
      · have there := (MemoryStore.readChunk_eq_ok.mp holds.read).1
        cases missing.symm.trans there
    · exact (other _ (placed r i same).1).trans before
  · intro r object err data reads ownReads
    have hne : r ≠ i := by
      rintro rfl
      cases reads.symm.trans writes
    rw [Pool.own_snoc_of_ne _ hne] at ownReads
    rw [filled]
    exact h.promoted r object err data reads ownReads

/-- DRAM is lost, with the requests that had begun. -/
theorem Keeps.restart (h : s.Keeps ssd calls) {world : StoreNodeState} (restarts : Restarts s.pool.world world) :
    Keeps ssd calls ⟨{ s.pool with world := world }, {i | Pool.own s.pool.history i ≠ []}⟩ := by
  obtain ⟨tier, same, restarted⟩ := restarts
  cases same.symm.trans h.tier
  obtain rfl : world = ⟨.withCapacity s.pool.world.dram.capacity, some ssd, ∅, s.pool.world.ssdBytesCapacity,
      s.pool.world.files⟩ := by
    unfold StoreNodeState.withSsd SsdStore.newWithKey at restarted
    by_cases key : ssd.cipher.length = 32
    · simpa [key] using restarted.symm
    · simp [key] at restarted
  constructor
  · rfl
  · exact h.files
  · exact h.persisted
  · exact h.filled
  · intro object w member
    obtain ⟨⟨positive, word, room⟩, length⟩ := h.fits object w member
    exact ⟨⟨positive, word, by simpa [MemoryStore.capacity, MemoryStore.withCapacity] using room⟩, length⟩
  · intro k _
    refine .inl ⟨rfl, fun w member begun => ?_⟩
    obtain ⟨event, came, _⟩ := Pool.mem_order.mp member
    rw [begun] at came
    cases came
  · intro r object err data reads goes own
    have begun : Pool.own s.pool.history r = [] := of_not_not goes
    rw [begun] at own
    cases own
  · exact h.promoted

/-- What is left of every request goes on from what it has done. -/
def GoesOn (ssd : SsdStore) (calls : I → NodeJob) (s : NodeSystem I) : Prop :=
  ∀ i, (s.pool.threads i).Meets ((calls i).Calls ssd) ((calls i).Finished ssd) (Pool.own s.pool.history i)

theorem run_goesOn {capacity ssdBytesCapacity : Nat} {trace : List (NodeLabel I)}
    (run : Run Step (start ssd calls capacity ssdBytesCapacity) trace s) : s.GoesOn ssd calls :=
  fun i => CrashPool.run_meets ((calls i).program_meets ssd) run

private theorem Keeps.write_step (h : s.Keeps ssd calls) (decrypts : SsdStore.Decrypts) (placed : Placed calls)
    {write : NodeWrite} (writes : calls i = .write write) (alive : i ∉ s.gone) {request : NodeCall}
    (made : write.Calls ssd (Pool.own s.pool.history i) request) {env : NodeEnv}
    (turn : InTurn calls s (.call i ⟨request, (s.pool.world.serve env request).1⟩)) :
    Keeps ssd calls ⟨⟨(s.pool.world.serve env request).2, threads,
      s.pool.history ++ [(i, ⟨request, (s.pool.world.serve env request).1⟩)]⟩, s.gone⟩ := by
  have writing {object : StoredObject} {P : Prop} (reads : calls i = .read object) : P := by
    cases writes.symm.trans reads
  cases request with
  | writePreallocatedChunk handle bytes =>
    obtain ⟨own, rfl, rfl⟩ := made
    rcases MemoryStore.writePreallocatedChunk_cases s.pool.world.dram write.handle write.bytes with
      ⟨err, he⟩ | ⟨length, fits, he⟩
    · simp only [StoreNodeState.serve, he]
      exact h.quiet (by simp [NodeEvent.stage]) (by simp [NodeEvent.stage]) rfl rfl (fun _ => rfl)
        fun object _ _ reads => writing reads
    · simp only [StoreNodeState.serve, he]
      exact h.fill placed writes own length fits
  | persistObject tier tenantId cacheKey bytes =>
    obtain ⟨own, same, rfl, rfl, rfl⟩ := made
    subst tier
    cases stored : ssd.persistObject s.pool.world.files env.persist write.tenantId write.cacheKey write.bytes with
    | mk result left =>
      simp only [StoreNodeState.serve, stored]
      cases result with
      | error err =>
        refine h.quiet (by simp [NodeEvent.stage]) (by simp [NodeEvent.stage]) rfl rfl (fun id => ?_)
          fun object _ _ reads => writing reads
        exact congrArg Except.toOption (SsdStore.readObject_of_failed stored none id.1 id.2)
      | ok => exact h.persist decrypts placed writes alive own stored turn
  | recordSsdObject tenantId cacheKey len =>
    exact h.quiet (by simp [NodeEvent.stage]) (by simp [NodeEvent.stage]) rfl rfl (fun _ => rfl)
      fun object _ _ reads => writing reads
  | allocateAndWrite len data => cases made
  | readChunk handle => cases made
  | promoteToDram tier tenantId cacheKey => cases made

private theorem Keeps.read_step (h : s.Keeps ssd calls) (placed : Placed calls) (reads : calls i = .read object)
    (alive : i ∉ s.gone) {request : NodeCall} (made : object.Calls ssd (Pool.own s.pool.history i) request)
    {env : NodeEnv} (turn : InTurn calls s (.call i ⟨request, (s.pool.world.serve env request).1⟩)) :
    Keeps ssd calls ⟨⟨(s.pool.world.serve env request).2, threads,
      s.pool.history ++ [(i, ⟨request, (s.pool.world.serve env request).1⟩)]⟩, s.gone⟩ := by
  generalize past : Pool.own s.pool.history i = own at made
  cases made with
  | readChunk =>
    refine h.quiet ?_ ?_ rfl rfl (fun _ => rfl) fun other err data _ own => ?_
    · cases s.pool.world.dram.readChunk object.handle <;> simp [NodeEvent.stage]
    · cases s.pool.world.dram.readChunk object.handle <;> simp [NodeEvent.stage]
    · simp [past] at own
  | promoteToDram err =>
    refine h.quiet ?_ ?_ rfl rfl (fun _ => rfl) fun other failure data also own => ?_
    · simp [NodeEvent.stage]
    · simp [NodeEvent.stage]
    · cases reads.symm.trans also
      rw [past, List.singleton_append, List.cons.injEq, List.singleton_inj] at own
      have promoted := own.2
      simp only [StoreNodeState.serve, StoredObject.promoted, Event.mk.injEq, heq_eq_eq, true_and] at promoted
      exact congrArg Except.toOption (SsdStore.readObject_eq_ok promoted)
  | writePreallocatedChunk err data =>
    rcases MemoryStore.writePreallocatedChunk_cases s.pool.world.dram object.handle data with
      ⟨failure, he⟩ | ⟨length, fits, he⟩
    · simp only [StoreNodeState.serve, he]
      refine h.quiet (by simp [NodeEvent.stage]) (by simp [NodeEvent.stage]) rfl rfl (fun _ => rfl)
        fun other error bytes _ own => ?_
      simp [past] at own
    · simp only [StoreNodeState.serve, he]
      exact h.refill placed reads alive past length fits (turn object reads)

theorem Keeps.step (h : s.Keeps ssd calls) (decrypts : SsdStore.Decrypts) (placed : Placed calls)
    (goes : s.GoesOn ssd calls) {label : NodeLabel I} (step : Guarded (InTurn calls) Step s label s') :
    s'.Keeps ssd calls := by
  obtain ⟨turn, step⟩ := step
  match label with
  | .call i ⟨request, reply⟩ =>
    obtain ⟨alive, next, world, pending, ⟨env, served⟩, rfl⟩ := step.call_cases
    have served : s.pool.world.serve env request = (reply, world) := served
    obtain rfl : (s.pool.world.serve env request).1 = reply := congrArg Prod.fst served
    obtain rfl : (s.pool.world.serve env request).2 = world := congrArg Prod.snd served
    have made := goes i
    rw [pending] at made
    have called : (calls i).Calls ssd (Pool.own s.pool.history i) request := made.1
    cases job : calls i with
    | write write =>
      rw [job] at called
      exact h.write_step decrypts placed job alive called turn
    | read object =>
      rw [job] at called
      exact h.read_step placed job alive called turn
  | .act (some action) => exact action.elim
  | .act none =>
    cases step with
    | crash restarts => exact h.restart restarts

theorem run_keeps (decrypts : SsdStore.Decrypts) (placed : Placed calls) {capacity ssdBytesCapacity : Nat}
    {trace : List (NodeLabel I)}
    (run : Run (Guarded (InTurn calls) Step) (start ssd calls capacity ssdBytesCapacity) trace s) :
    s.Keeps ssd calls :=
  run.invariant (P := fun _ (s : NodeSystem I) => s.Keeps ssd calls) (start_keeps ssd calls capacity ssdBytesCapacity)
    fun before kept step => kept.step decrypts placed (run_goesOn before.of_guarded) step

omit [Sha256] [ChaCha20Poly1305] in
theorem writes_of_order {w : I} {history : List (I × NodeEvent)}
    (member : w ∈ Pool.order (changes calls object stage) history) : (calls w).Writes object := by
  obtain ⟨_, _, did⟩ := Pool.mem_order.mp member
  exact (changes_eq_true.mp did).2

/-- Where all writes of an object carry the same bytes, every run has its calls in turn. -/
theorem run_inTurn (decrypts : SsdStore.Decrypts) (placed : Placed calls)
    (agree : ∀ object i j, (calls i).Writes object → (calls j).Writes object → (calls i).bytes = (calls j).bytes)
    {capacity ssdBytesCapacity : Nat} {trace : List (NodeLabel I)}
    (run : Run Step (start ssd calls capacity ssdBytesCapacity) trace s) :
    Run (Guarded (InTurn calls) Step) (start ssd calls capacity ssdBytesCapacity) trace s := by
  induction run with
  | start => exact .start
  | @snoc trace s s' label before step ih =>
    refine ih.snoc ⟨?_, step⟩
    have kept := run_keeps decrypts placed ih
    match label with
    | .call i ⟨.persistObject _ _ _ _, _⟩ =>
      intro j after _
      have first := writes_of_order (after.subset (show i ∈ [i, j] by simp))
      have second := writes_of_order (after.subset (show j ∈ [i, j] by simp))
      exact agree _ j i second first
    | .call i ⟨.writePreallocatedChunk handle data, reply⟩ =>
      intro object reads found read
      obtain ⟨_, next, world, pending, _⟩ := step.call_cases
      have made := run_goesOn before i
      rw [pending, reads] at made
      have called : object.Calls ssd (Pool.own s.pool.history i) (.writePreallocatedChunk handle data) := made.1
      generalize past : Pool.own s.pool.history i = own at called
      cases called with
      | writePreallocatedChunk err =>
        obtain ⟨w, member, bytes⟩ := kept.promoted i object err data reads past
        obtain rfl : (calls i).object = object := by rw [reads, NodeJob.object]
        rcases kept.dram i (kept.fits _ w member).1.1 with ⟨missing, _⟩ | ⟨j, holds⟩
        · have there := (MemoryStore.readChunk_eq_ok.mp read).1
          cases missing.symm.trans there
        · cases holds.read.symm.trans read
          exact (agree _ j w (writes_of_order holds.member) (writes_of_order member)).trans bytes
    | .call _ ⟨.allocateAndWrite _ _, _⟩ | .call _ ⟨.readChunk _, _⟩ | .call _ ⟨.promoteToDram _ _ _, _⟩
    | .call _ ⟨.recordSsdObject _ _ _, _⟩ | .act _ => exact trivial

/-- The bytes are those of the write or of one that came to DRAM after it. -/
def Serves (calls : I → NodeJob) (object : StoredObject) (w : I) (history : List (I × NodeEvent))
    (data : List UInt8) : Prop :=
  ∃ j ∈ Pool.order (changes calls object .dram) history, (calls j).bytes = data ∧
    (j = w ∨ [w, j].Sublist (Pool.order (changes calls object .dram) history))

/-- A reply to a read that begins after the write is on SSD: bytes of the object, unless the file cannot be read. -/
def Sound (calls : I → NodeJob) (object : StoredObject) (w : I) (history : List (I × NodeEvent)) : NodeEvent → Prop
  | ⟨.readChunk _, .ok data⟩ => Serves calls object w history data
  | ⟨.readChunk _, .error err⟩ => StoreNode.missingInDram err = true
  | ⟨.promoteToDram _ _ _, .ok data⟩ => Serves calls object w history data
  | ⟨.promoteToDram _ _ _, .error err⟩ => ∃ path source, err = .io "reading SSD object" path source
  | ⟨.writePreallocatedChunk _ _, .error _⟩ => False
  | _ => True

omit [DecidableEq I] [Sha256] [ChaCha20Poly1305] in
theorem Serves.append {w : I} {history : List (I × NodeEvent)} {data : List UInt8}
    (h : Serves calls object w history data) (more : List (I × NodeEvent)) :
    Serves calls object w (history ++ more) data := by
  obtain ⟨j, member, bytes, after⟩ := h
  have grown : (Pool.order (changes calls object .dram) history).Sublist
      (Pool.order (changes calls object .dram) (history ++ more)) := by
    simp only [Pool.order, List.filter_append, List.map_append]
    exact List.sublist_append_left _ _
  exact ⟨j, grown.subset member, bytes, after.imp id fun h => h.trans grown⟩

omit [DecidableEq I] [Sha256] [ChaCha20Poly1305] in
theorem Sound.append {w : I} {history : List (I × NodeEvent)} (h : Sound calls object w history event)
    (more : List (I × NodeEvent)) : Sound calls object w (history ++ more) event := by
  obtain ⟨request, reply⟩ := event
  cases request with
  | readChunk handle | promoteToDram tier tenantId cacheKey =>
    cases reply with
    | ok data => exact Serves.append h more
    | error err => exact h
  | writePreallocatedChunk handle bytes => cases reply <;> exact h
  | allocateAndWrite len data => exact trivial
  | persistObject tier tenantId cacheKey bytes => exact trivial
  | recordSsdObject tenantId cacheKey len => exact trivial

/-- Bytes that no write on SSD has overtaken serve every write on SSD. -/
theorem Keeps.serves (h : s.Keeps ssd calls) {w j : I}
    (stored : w ∈ Pool.order (changes calls object .ssd) s.pool.history)
    (member : j ∈ Pool.order (changes calls object .dram) s.pool.history)
    (current : [j, w].Sublist (Pool.order (changes calls object .dram) s.pool.history) →
      (calls w).bytes = (calls j).bytes) : Serves calls object w s.pool.history (calls j).bytes := by
  have filled := h.filled object w stored
  rcases Pool.either_order filled member with rfl | after | before
  · exact ⟨w, filled, rfl, .inl rfl⟩
  · exact ⟨j, member, rfl, .inr after⟩
  · exact ⟨w, filled, current before, .inl rfl⟩

omit [Sha256] [DecidableEq I] in
/-- An object that is on SSD is read, or the file system fails. -/
private theorem readObject_faulty {files : Files} {tenantId cacheKey : String} {data : List UInt8}
    (stored : ssd.readObject files none tenantId cacheKey = .ok data) (fault : Option String) :
    ssd.readObject files fault tenantId cacheKey = .ok data ∨
      ∃ path source, ssd.readObject files fault tenantId cacheKey = .error (.io "reading SSD object" path source) := by
  cases fault with
  | none => exact .inl stored
  | some source =>
    unfold SsdStore.readObject at stored ⊢
    cases named : ssd.objectPath tenantId cacheKey with
    | error err => simp [named] at stored
    | ok path => exact .inr ⟨path, source, rfl⟩

theorem Keeps.reply_sound (h : s.Keeps ssd calls) (reads : calls i = .read object) {w : I}
    (stored : w ∈ Pool.order (changes calls object .ssd) s.pool.history) {request : NodeCall}
    (made : object.Calls ssd (Pool.own s.pool.history i) request)
    (earlier : ∀ event ∈ Pool.own s.pool.history i, Sound calls object w s.pool.history event) (env : NodeEnv) :
    Sound calls object w s.pool.history ⟨request, (s.pool.world.serve env request).1⟩ := by
  obtain rfl : (calls i).object = object := by rw [reads, NodeJob.object]
  have positive := (h.fits _ w (h.filled _ w stored)).1.1
  generalize past : Pool.own s.pool.history i = own at made earlier
  cases made with
  | readChunk =>
    rcases h.dram i positive with ⟨missing, _⟩ | ⟨j, holds⟩
    · have unread : s.pool.world.dram.readChunk (calls i).object.handle =
          .error (invalidHandle (calls i).object.handle) := by
        simp only [MemoryStore.readChunk, MemoryStore.validateAllocatedHandle, missing]
      simp only [StoreNodeState.serve, unread]
      exact rfl
    · simp only [StoreNodeState.serve, holds.read]
      exact h.serves stored holds.member fun before => holds.current w before (.inl stored)
  | promoteToDram err =>
    obtain ⟨last, latest⟩ := Pool.exists_latest stored
    have payload := h.files i
    rw [latest, Option.map_some] at payload
    have held : ssd.readObject s.pool.world.files none (calls i).object.tenantId (calls i).object.cacheKey =
        .ok (calls last).bytes := by
      unfold SsdStore.payload at payload
      cases found : ssd.readObject s.pool.world.files none (calls i).object.identity.1 (calls i).object.identity.2 with
      | error err => simp [found, Except.toOption] at payload
      | ok data =>
        rw [found] at payload
        exact found.trans (congrArg Except.ok (Option.some.inj payload))
    simp only [StoreNodeState.serve, SsdStore.promoteToDram]
    rcases readObject_faulty held env.readFault with read | ⟨path, source, failed⟩
    · simp only [read]
      exact h.serves stored (h.filled _ last (Pool.mem_of_latest latest)) fun before =>
        h.persisted _ last latest w before stored
    · simp only [failed]
      exact ⟨path, source, rfl⟩
  | writePreallocatedChunk err data =>
    obtain ⟨j, member, bytes, _⟩ : Serves calls (calls i).object w s.pool.history data :=
      earlier ((calls i).object.promoted ssd data) (by simp)
    obtain ⟨fits, length⟩ := h.fits _ j member
    simp only [StoreNodeState.serve, MemoryStore.writePreallocatedChunk_of_fits (bytes ▸ length) fits]
    exact trivial

/-- One more step adds a sound reply to the read, or none. -/
theorem Keeps.step_sound (h : s.Keeps ssd calls) (goes : s.GoesOn ssd calls) (reads : calls i = .read object) {w : I}
    (stored : w ∈ Pool.order (changes calls object .ssd) s.pool.history)
    (sound : ∀ event ∈ Pool.own s.pool.history i, Sound calls object w s.pool.history event) {label : NodeLabel I}
    (step : Step s label s') :
    w ∈ Pool.order (changes calls object .ssd) s'.pool.history ∧
      ∀ event ∈ Pool.own s'.pool.history i, Sound calls object w s'.pool.history event := by
  match label with
  | .call j ⟨request, reply⟩ =>
    obtain ⟨_, next, world, pending, ⟨env, served⟩, rfl⟩ := step.call_cases
    have served : s.pool.world.serve env request = (reply, world) := served
    obtain rfl : (s.pool.world.serve env request).1 = reply := congrArg Prod.fst served
    have made := goes j
    rw [pending] at made
    have called : (calls j).Calls ssd (Pool.own s.pool.history j) request := made.1
    refine ⟨?_, fun event member => ?_⟩
    · rw [Pool.order_snoc]
      exact List.mem_append_left _ stored
    · rcases eq_or_ne i j with rfl | hne
      · rw [Pool.own_snoc_self, List.mem_append] at member
        rw [reads] at called
        rcases member with old | new
        · exact (sound event old).append _
        · cases List.mem_singleton.mp new
          exact (h.reply_sound reads stored called sound env).append _
      · rw [Pool.own_snoc_of_ne _ hne] at member
        exact (sound event member).append _
  | .act (some action) => exact action.elim
  | .act none =>
    cases step with
    | crash _ => exact ⟨stored, sound⟩

theorem run_sound (decrypts : SsdStore.Decrypts) (placed : Placed calls) {capacity ssdBytesCapacity : Nat}
    {before after : List (NodeLabel I)}
    (first : Run (Guarded (InTurn calls) Step) (start ssd calls capacity ssdBytesCapacity) before s)
    (reads : calls i = .read object) (unasked : Pool.own s.pool.history i = []) {w : I}
    (stored : w ∈ Pool.order (changes calls object .ssd) s.pool.history)
    (later : Run (Guarded (InTurn calls) Step) s after s') :
    w ∈ Pool.order (changes calls object .ssd) s'.pool.history ∧
      ∀ event ∈ Pool.own s'.pool.history i, Sound calls object w s'.pool.history event := by
  induction later with
  | start => exact ⟨stored, by simp [unasked]⟩
  | snoc past last ih =>
    have run := first.append past
    exact (run_keeps decrypts placed run).step_sound (run_goesOn run.of_guarded) reads ih.1 ih.2 last.2

/-- A write that was acknowledged is on SSD. -/
theorem stored_of_acknowledged {capacity ssdBytesCapacity : Nat} {trace : List (NodeLabel I)}
    (run : Run Step (start ssd calls capacity ssdBytesCapacity) trace s) {w : I} {write : NodeWrite}
    (writes : calls w = .write write) {response : NodeResponse}
    (acknowledged : s.pool.threads w = .done (.ok response)) :
    w ∈ Pool.order (changes calls write.object .ssd) s.pool.history := by
  have finished := run_goesOn run w
  rw [acknowledged, writes] at finished
  obtain ⟨_, own⟩ : response = .written ∧
      Pool.own s.pool.history w = [write.filledDram, write.persisted ssd, write.recorded] := finished response rfl
  rw [Pool.mem_order, own]
  exact ⟨write.persisted ssd, by simp, changes_eq_true.mpr ⟨rfl, by rw [writes]; rfl⟩⟩

omit [DecidableEq I] [Sha256] [ChaCha20Poly1305] in
/-- How a read ends that got sound replies. -/
theorem finished_sound {past : List NodeEvent} {result : Except StoreNodeError NodeResponse} {w : I}
    {history : List (I × NodeEvent)} (ended : object.Finished ssd past result)
    (sound : ∀ event ∈ past, Sound calls object w history event) :
    (∃ tier data, result = .ok (.read ⟨object.handle.offset, object.handle.len, tier, data⟩) ∧
      Serves calls object w history data) ∨
    ∃ path source, result = .error (.ssd (.io "reading SSD object" path source)) := by
  cases ended with
  | dram data => exact .inl ⟨_, _, rfl, sound (object.found data) (by simp)⟩
  | ssd err data => exact .inl ⟨_, _, rfl, sound (object.promoted ssd data) (by simp)⟩
  | unread err missing =>
    have lost : StoreNode.missingInDram err = true := sound (object.missed err) (by simp)
    cases missing.symm.trans lost
  | unpromoted err failure =>
    obtain ⟨path, source, rfl⟩ := sound (object.unpromoted ssd failure) (by simp)
    exact .inr ⟨path, source, rfl⟩
  | unfilled err data failure => exact (sound (object.refilled data (.error failure)) (by simp)).elim

/-- A read that begins after a write of the object was acknowledged returns the bytes of that write
or of one that came to DRAM after it, whatever restarts come between, unless the file system fails to read the file. -/
theorem acknowledged_write_read (decrypts : SsdStore.Decrypts) (placed : Placed calls) {capacity ssdBytesCapacity : Nat}
    {before after : List (NodeLabel I)}
    (first : Run (Guarded (InTurn calls) Step) (start ssd calls capacity ssdBytesCapacity) before s) {w r : I}
    {write : NodeWrite} (writes : calls w = .write write) (acknowledged : s.pool.threads w = .done (.ok .written))
    (reads : calls r = .read write.object) (unasked : Pool.own s.pool.history r = [])
    (later : Run (Guarded (InTurn calls) Step) s after s') {result : Except StoreNodeError NodeResponse}
    (answered : s'.pool.threads r = .done result) :
    (∃ tier data, result = .ok (.read ⟨write.handle.offset, write.handle.len, tier, data⟩) ∧
      Serves calls write.object w s'.pool.history data) ∨
    ∃ path source, result = .error (.ssd (.io "reading SSD object" path source)) := by
  have stored := stored_of_acknowledged first.of_guarded writes acknowledged
  have sound := (run_sound decrypts placed first reads unasked stored later).2
  have ended := run_goesOn (first.append later).of_guarded r
  rw [answered, reads] at ended
  exact finished_sound ended sound

section
variable {α : Type}

/-- The thread takes its next call, and no file operation fails. -/
def healthyTurn (s : CrashPool I StoreNodeState NodeCall NodeCall.Reply α) (i : I) :
    CrashPool I StoreNodeState NodeCall NodeCall.Reply α :=
  match s.pool.threads i with
  | .done _ => s
  | .call request next =>
    ⟨⟨(s.pool.world.serve (.healthy 0) request).2,
      Function.update s.pool.threads i (next (s.pool.world.serve (.healthy 0) request).1),
      s.pool.history ++ [(i, ⟨request, (s.pool.world.serve (.healthy 0) request).1⟩)]⟩, s.gone⟩

theorem healthyTurn_step (s : CrashPool I StoreNodeState NodeCall NodeCall.Reply α) (i : I) {request : NodeCall}
    {next : request.Reply → NodeProgram α} (pending : s.pool.threads i = .call request next) (alive : i ∉ s.gone)
    (met : InTurn calls s (.call i ⟨request, (s.pool.world.serve (.healthy 0) request).1⟩)) :
    Guarded (InTurn calls) (CrashPool.Step StoreNodeState.nodeServer Restarts) s
      (.call i ⟨request, (s.pool.world.serve (.healthy 0) request).1⟩) (healthyTurn s i) := by
  refine ⟨met, ?_⟩
  simp only [healthyTurn, pending]
  exact .call alive (.call pending ⟨.healthy 0, rfl⟩)

end

/-- A write and a read of one object. -/
private def writeAndRead : Bool → NodeJob
  | false => .write ⟨⟨0, 2⟩, [1, 2], "tenant-a", "key"⟩
  | true => .read ⟨⟨0, 2⟩, "tenant-a", "key"⟩

omit [Sha256] [ChaCha20Poly1305] in
/-- A write is acknowledged, the node restarts, and a read begins. -/
theorem restarted_node_reads :
    let _ := sampleDigest
    let _ := sampleCipher
    ∃ before s after s', Run (Guarded (InTurn writeAndRead) Step) (start sampleSsd writeAndRead 8 0) before s ∧
      Run (Guarded (InTurn writeAndRead) Step) s after s' ∧
      s'.pool.threads true = .done (.ok (.read ⟨0, 2, "ssd", [1, 2]⟩)) ∧
      Serves writeAndRead ⟨⟨0, 2⟩, "tenant-a", "key"⟩ false s'.pool.history [1, 2] := by
  let _ := sampleDigest
  let _ := sampleCipher
  let begun := start sampleSsd writeAndRead 8 0
  let filled := healthyTurn begun false
  let persisted := healthyTurn filled false
  let acknowledged := healthyTurn persisted false
  let restarted : NodeSystem Bool :=
    ⟨{ acknowledged.pool with world := ⟨.withCapacity 8, some sampleSsd, ∅, 0, acknowledged.pool.world.files⟩ },
      {i | Pool.own acknowledged.pool.history i ≠ []}⟩
  let missed := healthyTurn restarted true
  let promoted := healthyTurn missed true
  have crash : Guarded (InTurn writeAndRead) Step acknowledged (.act none) restarted :=
    ⟨trivial, .crash ⟨sampleSsd, rfl, rfl⟩⟩
  have alive : true ∉ restarted.gone := fun begun => begun rfl
  let write : NodeWrite := ⟨⟨0, 2⟩, [1, 2], "tenant-a", "key"⟩
  have alone : InTurn writeAndRead filled (.call false (write.persisted sampleSsd)) := fun j _ done => by cases done
  have first := ((Run.start.snoc (healthyTurn_step begun false rfl id fun object reads => by cases reads)).snoc
    (healthyTurn_step filled false rfl id alone)).snoc (healthyTurn_step persisted false rfl id trivial)
  have later := (((Run.start.snoc crash).snoc (healthyTurn_step restarted true rfl alive trivial)).snoc
    (healthyTurn_step missed true rfl alive trivial)).snoc
      (healthyTurn_step promoted true rfl alive fun _ _ found read => by cases read)
  have placed : Placed writeAndRead := fun i j hne => absurd (by cases i <;> cases j <;> rfl) hne
  have answered : (healthyTurn promoted true).pool.threads true = .done (.ok (.read ⟨0, 2, "ssd", [1, 2]⟩)) := rfl
  obtain ⟨tier, data, same, serves⟩ | ⟨_, _, failed⟩ :=
    acknowledged_write_read (w := false) sampleCipher_decrypts placed first rfl rfl rfl rfl later answered
  · simp only [Except.ok.injEq, NodeResponse.read.injEq, ReadChunkResponse.mk.injEq] at same
    exact ⟨_, _, _, _, first, later, answered, same.2.2.2 ▸ serves⟩
  · cases failed

end NodeSystem
end Mooncache
