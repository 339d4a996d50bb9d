import Mooncache.Foundation.Threads
import Mooncache.Store.Requests

/-! Concurrent writes on one store node: when the two tiers and the recorded sizes agree, once no
write is in flight. -/
namespace Mooncache

/-- The arguments of one write under an identity. -/
structure NodeWrite where
  handle : ChunkHandle
  bytes : List UInt8
  tenantId : String
  cacheKey : String

namespace NodeWrite

def identity (w : NodeWrite) : String × String := (w.tenantId, w.cacheKey)

def program (ssd : SsdStore) (w : NodeWrite) : NodeProgram (Except StoreNodeError Unit) :=
  StoreNode.writePreallocated (some ssd) w.handle w.bytes (some w.tenantId) (some w.cacheKey)

def filledDram (w : NodeWrite) : NodeEvent := ⟨.writePreallocatedChunk w.handle w.bytes, .ok ()⟩

def persisted (ssd : SsdStore) (w : NodeWrite) : NodeEvent :=
  ⟨.persistObject ssd w.tenantId w.cacheKey w.bytes, .ok ()⟩

def recorded (w : NodeWrite) : NodeEvent := ⟨.recordSsdObject w.tenantId w.cacheKey w.bytes.length, ()⟩

/-- The calls of a write and what it has done before each. -/
def Calls (ssd : SsdStore) (w : NodeWrite) (past : List NodeEvent) : NodeCall → Prop
  | .writePreallocatedChunk handle bytes => past = [] ∧ handle = w.handle ∧ bytes = w.bytes
  | .persistObject tier tenantId cacheKey bytes =>
    past = [w.filledDram] ∧ tier = ssd ∧ tenantId = w.tenantId ∧ cacheKey = w.cacheKey ∧ bytes = w.bytes
  | .recordSsdObject tenantId cacheKey len =>
    past = [w.filledDram, w.persisted ssd] ∧ tenantId = w.tenantId ∧ cacheKey = w.cacheKey ∧ len = w.bytes.length
  | _ => False

/-- What a write that succeeds has done. -/
def Finished (ssd : SsdStore) (w : NodeWrite) (past : List NodeEvent) (result : Except StoreNodeError Unit) : Prop :=
  result = .ok () → past = [w.filledDram, w.persisted ssd, w.recorded]

theorem program_meets (ssd : SsdStore) (w : NodeWrite) : (w.program ssd).Meets (w.Calls ssd) (w.Finished ssd) [] := by
  refine ⟨⟨rfl, rfl, rfl⟩, fun reply => ?_⟩
  cases reply with
  | error err => exact fun same => by cases same
  | ok =>
    refine ⟨⟨rfl, rfl, rfl, rfl, rfl⟩, fun reply => ?_⟩
    cases reply with
    | error err => exact fun same => by cases same
    | ok => exact ⟨⟨rfl, rfl, rfl, rfl⟩, fun _ _ => rfl⟩

end NodeWrite

/-- What a write changes, in this order. -/
inductive NodeStage where
  | dram
  | ssd
  | sizes
  deriving DecidableEq

/-- What an event has changed, if it has. -/
def NodeEvent.stage : NodeEvent → Option NodeStage
  | ⟨.writePreallocatedChunk _ _, .ok ()⟩ => some .dram
  | ⟨.persistObject _ _ _ _, .ok ()⟩ => some .ssd
  | ⟨.recordSsdObject _ _ _, ()⟩ => some .sizes
  | _ => none

variable {I : Type} [DecidableEq I]

abbrev NodePool (I : Type) := Pool I StoreNodeState NodeCall NodeCall.Reply (Except StoreNodeError Unit)

/-- A write of the identity changes the stage. -/
def changing (calls : I → NodeWrite) (id : String × String) (stage : NodeStage) (i : I) (event : NodeEvent) : Bool :=
  decide (event.stage = some stage ∧ (calls i).identity = id)

/-- What is stored for an identity. -/
def SsdStore.payload [ChaCha20Poly1305] (store : SsdStore) (files : Files) (id : String × String) :
    Option (List UInt8) :=
  (store.readObject files none id.1 id.2).toOption

namespace NodeWrite
variable (ssd : SsdStore) (w : NodeWrite)

@[simp] theorem filledDram_stage : w.filledDram.stage = some .dram := rfl

@[simp] theorem persisted_stage : (w.persisted ssd).stage = some .ssd := rfl

@[simp] theorem recorded_stage : w.recorded.stage = some .sizes := rfl

end NodeWrite

section
variable {calls : I → NodeWrite} {id : String × String} {stage : NodeStage} {history : List (I × NodeEvent)} {i : I}
  {event : NodeEvent}

omit [DecidableEq I] in
theorem changing_eq_true :
    changing calls id stage i event = true ↔ event.stage = some stage ∧ (calls i).identity = id := by
  simp [changing]

omit [DecidableEq I] in
theorem latest_changing (h : event.stage = some stage) :
    Pool.latest (changing calls id stage) (history ++ [(i, event)]) =
      if (calls i).identity = id then some i else Pool.latest (changing calls id stage) history := by
  simp [Pool.latest_snoc, changing, h]

omit [DecidableEq I] in
theorem latest_changing_of_ne (h : event.stage ≠ some stage) :
    Pool.latest (changing calls id stage) (history ++ [(i, event)]) = Pool.latest (changing calls id stage) history := by
  simp [Pool.latest_snoc, changing, h]

omit [DecidableEq I] in
theorem identity_of_latest (h : Pool.latest (changing calls id stage) history = some i) : (calls i).identity = id := by
  obtain ⟨⟨j, event⟩, member, rfl⟩ := List.mem_map.mp (Pool.mem_of_latest h)
  exact (changing_eq_true.mp (List.mem_filter.mp member).2).2

theorem not_mem_order {past : List NodeEvent} (own : Pool.own history i = past)
    (h : ∀ event ∈ past, event.stage ≠ some stage) : i ∉ Pool.order (changing calls id stage) history := by
  rw [Pool.mem_order, own]
  rintro ⟨event, member, changed⟩
  exact h event member (changing_eq_true.mp changed).1

omit [DecidableEq I] in
/-- What a call leaves of the order of the writes. -/
theorem ordered_changing {V : Type} {first second : NodeStage} {value : I → V}
    (h : Pool.Ordered (changing calls id first) (changing calls id second) value history)
    (fresh : event.stage = some first → i ∉ Pool.order (changing calls id second) history)
    (own : event.stage = some second → (calls i).identity = id →
      Pool.NotOvertaken (changing calls id first) (changing calls id second) value history i) :
    Pool.Ordered (changing calls id first) (changing calls id second) value (history ++ [(i, event)]) :=
  h.snoc (fun starts => fresh (changing_eq_true.mp starts).1) fun finishes =>
    own (changing_eq_true.mp finishes).1 (changing_eq_true.mp finishes).2

omit [DecidableEq I] in
theorem ordered_changing_of_ne {V : Type} {first second : NodeStage} {value : I → V}
    (h : Pool.Ordered (changing calls id first) (changing calls id second) value history)
    (start : event.stage ≠ some first) (finish : event.stage ≠ some second) :
    Pool.Ordered (changing calls id first) (changing calls id second) value (history ++ [(i, event)]) :=
  ordered_changing h (fun starts => absurd starts start) fun finishes => absurd finishes finish

end

namespace NodeWrite

/-- The second chunk survives the first write: it is the same with the same bytes, or starts
elsewhere and has the same bytes wherever the two meet. -/
def Spares (w other : NodeWrite) : Prop :=
  w.handle = other.handle ∧ w.bytes = other.bytes ∨
    other.handle.offset ≠ w.handle.offset ∧ ∀ i, other.handle.offset ≤ i → i < other.handle.offset + other.handle.len →
      w.handle.offset ≤ i → i < w.handle.offset + w.handle.len →
      w.bytes[i - w.handle.offset]? = other.bytes[i - other.handle.offset]?

instance (w other : NodeWrite) : Decidable (w.Spares other) := inferInstanceAs (Decidable (_ ∨ _))

variable [Sha256]

theorem Spares.read {w other : NodeWrite} (spares : w.Spares other) {store : MemoryStore}
    (length : w.bytes.length = w.handle.len) (fits : store.Fits w.handle)
    (read : store.readChunk other.handle = .ok other.bytes) :
    (store.filled w.handle w.bytes).readChunk other.handle = .ok other.bytes := by
  rcases spares with ⟨handle, bytes⟩ | ⟨away, agree⟩
  · rw [← handle, ← bytes]
    exact MemoryStore.readChunk_filled length fits
  · have hne : other.handle ≠ w.handle := fun same => away (congrArg ChunkHandle.offset same)
    refine (MemoryStore.readChunk_filled_iff length fits hne read).mpr ⟨away, fun i low high start stop => ?_⟩
    have held := (MemoryStore.readChunk_eq_ok.mp read).2.2.2
    rw [agree i low high start stop, ← held, getElem?_slice _ _ (by omega)]
    congr 1
    omega

end NodeWrite

namespace StoreNodeState
variable [Sha256] [ChaCha20Poly1305] {ssd : SsdStore} {calls : I → NodeWrite} {s s' : NodePool I}

def nodeServer : Server StoreNodeState Empty NodeCall NodeCall.Reply where
  serve s request reply s' := ∃ env, s.serve env request = (reply, s')
  act _ action _ := action.elim

/-- The node is empty and no write has begun. -/
def idlePool (ssd : SsdStore) (calls : I → NodeWrite) (capacity ssdBytesCapacity : Nat) : NodePool I :=
  Pool.initial ⟨.withCapacity capacity, some ssd, ∅, ssdBytesCapacity, ∅⟩ fun i => (calls i).program ssd

/-- Every write that has begun has succeeded. -/
def AtRest (s : NodePool I) : Prop := ∀ i, Pool.own s.history i = [] ∨ s.threads i = .done (.ok ())

/-- Both tiers hold the bytes of the last write of an identity to DRAM, and the node counts the
bytes of the objects on SSD. -/
structure Agrees (ssd : SsdStore) (calls : I → NodeWrite) (s : NodePool I) : Prop where
  tiers : ∀ id i, Pool.latest (changing calls id .dram) s.history = some i →
    ∃ bytes, s.world.dram.readChunk (calls i).handle = .ok bytes ∧ ssd.payload s.world.files id = some bytes
  sizes : ∃ objects : Finset (String × String), (∀ id, id ∈ objects ↔ (ssd.payload s.world.files id).isSome) ∧
    s.world.ssdBytesUsed = ∑ id ∈ objects, (ssd.payload s.world.files id).elim 0 List.length

/-- A write to DRAM spares the chunks that other identities use; no write of an identity overtakes
another on the way to SSD with other bytes, or on the way to the recorded sizes with another
length; and the recorded sizes stay within a word. -/
def InTurn (calls : I → NodeWrite) (s : NodePool I) : Pool.Label I Empty NodeCall NodeCall.Reply → Prop
  | .call i ⟨.writePreallocatedChunk _ _, _⟩ => ∀ j, (calls i).identity ≠ (calls j).identity →
    Pool.latest (changing calls (calls j).identity .dram) s.history = some j → (calls i).Spares (calls j)
  | .call i ⟨.persistObject _ _ _ _, _⟩ =>
    Pool.NotOvertaken (changing calls (calls i).identity .dram) (changing calls (calls i).identity .ssd)
      (fun j => (calls j).bytes) s.history i
  | .call i ⟨.recordSsdObject tenantId cacheKey len, _⟩ =>
    Pool.NotOvertaken (changing calls (calls i).identity .ssd) (changing calls (calls i).identity .sizes)
      (fun j => (calls j).bytes.length) s.history i ∧
      Table.total (fun _ len => len) (s.world.ssdObjects.insert (tenantId, cacheKey) len) ≤ wordMax
  | _ => True

instance [Fintype I] (calls : I → NodeWrite) (s : NodePool I) (label : Pool.Label I Empty NodeCall NodeCall.Reply) :
    Decidable (InTurn calls s label) :=
  match label with
  | .call _ ⟨.writePreallocatedChunk _ _, _⟩ => inferInstanceAs (Decidable (∀ _, _ → _ → _))
  | .call _ ⟨.persistObject _ _ _ _, _⟩ => inferInstanceAs (Decidable (Pool.NotOvertaken _ _ _ _ _))
  | .call _ ⟨.recordSsdObject _ _ _, _⟩ => inferInstanceAs (Decidable (Pool.NotOvertaken _ _ _ _ _ ∧ _ ≤ _))
  | .call _ ⟨.allocateAndWrite _ _, _⟩ | .call _ ⟨.readChunk _, _⟩ | .call _ ⟨.promoteToDram _ _ _, _⟩ | .act _ =>
    inferInstanceAs (Decidable True)

/-- What is left of every write goes on from what it has done. -/
def GoesOn (ssd : SsdStore) (calls : I → NodeWrite) (s : NodePool I) : Prop :=
  ∀ i, (s.threads i).Meets ((calls i).Calls ssd) ((calls i).Finished ssd) (Pool.own s.history i)

theorem run_goesOn {capacity ssdBytesCapacity : Nat} {trace : List (Pool.Label I Empty NodeCall NodeCall.Reply)}
    (run : Run (Pool.Step nodeServer) (idlePool ssd calls capacity ssdBytesCapacity) trace s) : GoesOn ssd calls s :=
  fun i => Pool.run_meets ((calls i).program_meets ssd) run

/-- The tiers and the sizes are those of the last writes to reach them, none of which was overtaken. -/
structure Follows (ssd : SsdStore) (calls : I → NodeWrite) (s : NodePool I) : Prop where
  dram : ∀ id i, Pool.latest (changing calls id .dram) s.history = some i →
    s.world.dram.readChunk (calls i).handle = .ok (calls i).bytes
  objects : ∀ id, ssd.payload s.world.files id =
    (Pool.latest (changing calls id .ssd) s.history).map fun i => (calls i).bytes
  sizes : ∀ id, s.world.ssdObjects.lookup id =
    (Pool.latest (changing calls id .sizes) s.history).map fun i => (calls i).bytes.length
  total : Table.total (fun _ len => len) s.world.ssdObjects ≤ wordMax
  persisted : ∀ id, Pool.Ordered (changing calls id .dram) (changing calls id .ssd)
    (fun i => (calls i).bytes) s.history
  recorded : ∀ id, Pool.Ordered (changing calls id .ssd) (changing calls id .sizes)
    (fun i => (calls i).bytes.length) s.history

omit [DecidableEq I] in
/-- A call that fails changes no stage. -/
theorem Follows.failed (h : Follows ssd calls s) {i : I} {event : NodeEvent}
    {threads : I → NodeProgram (Except StoreNodeError Unit)} {files : Files} (quiet : event.stage = none)
    (same : ∀ id, ssd.payload files id = ssd.payload s.world.files id) :
    Follows ssd calls ⟨{ s.world with files := files }, threads, s.history ++ [(i, event)]⟩ where
  dram id j last := h.dram id j (by rwa [latest_changing_of_ne (by simp [quiet])] at last)
  objects id := by rw [same, h.objects, latest_changing_of_ne (by simp [quiet])]
  sizes id := by rw [h.sizes, latest_changing_of_ne (by simp [quiet])]
  total := h.total
  persisted id := ordered_changing_of_ne (h.persisted id) (by simp [quiet]) (by simp [quiet])
  recorded id := ordered_changing_of_ne (h.recorded id) (by simp [quiet]) (by simp [quiet])

theorem Follows.fill (h : Follows ssd calls s) {i : I} {threads : I → NodeProgram (Except StoreNodeError Unit)}
    (own : Pool.own s.history i = []) (length : (calls i).bytes.length = (calls i).handle.len)
    (fits : s.world.dram.Fits (calls i).handle)
    (spares : ∀ j, (calls i).identity ≠ (calls j).identity →
      Pool.latest (changing calls (calls j).identity .dram) s.history = some j → (calls i).Spares (calls j)) :
    Follows ssd calls ⟨{ s.world with dram := s.world.dram.filled (calls i).handle (calls i).bytes }, threads,
      s.history ++ [(i, (calls i).filledDram)]⟩ where
  dram id j last := by
    rw [latest_changing rfl] at last
    split at last
    · cases last
      exact MemoryStore.readChunk_filled length fits
    · rename_i other
      have same := identity_of_latest last
      subst same
      exact (spares j other last).read length fits (h.dram _ j last)
  objects id := by
    rw [latest_changing_of_ne (by simp)]
    exact h.objects id
  sizes id := by
    rw [latest_changing_of_ne (by simp)]
    exact h.sizes id
  total := h.total
  persisted id := ordered_changing (h.persisted id) (fun _ => not_mem_order own (by simp)) fun finishes => by
    simp at finishes
  recorded id := ordered_changing_of_ne (h.recorded id) (by simp) (by simp)

theorem Follows.persist (h : Follows ssd calls s) (decrypts : SsdStore.Decrypts) {i : I}
    {threads : I → NodeProgram (Except StoreNodeError Unit)} {env : PersistEnv} {files : Files}
    (own : Pool.own s.history i = [(calls i).filledDram])
    (stored : ssd.persistObject s.world.files env (calls i).tenantId (calls i).cacheKey (calls i).bytes = (.ok (), files))
    (turn : Pool.NotOvertaken (changing calls (calls i).identity .dram) (changing calls (calls i).identity .ssd)
      (fun j => (calls j).bytes) s.history i) :
    Follows ssd calls ⟨{ s.world with files := files }, threads, s.history ++ [(i, (calls i).persisted ssd)]⟩ where
  dram id j last := h.dram id j (by rwa [latest_changing_of_ne (by simp)] at last)
  objects id := by
    rw [latest_changing (by simp)]
    split
    · rename_i same
      subst same
      exact congrArg Except.toOption (SsdStore.readObject_persist decrypts stored)
    · rename_i other
      have kept := SsdStore.readObject_persist_of_ne ssd s.world.files env (calls i).bytes none (Ne.symm other)
      rw [stored] at kept
      rw [← h.objects id]
      exact congrArg Except.toOption kept
  sizes id := by
    rw [latest_changing_of_ne (by simp)]
    exact h.sizes id
  total := h.total
  persisted id := ordered_changing (h.persisted id) (fun starts => by simp at starts) fun _ same => same ▸ turn
  recorded id := ordered_changing (h.recorded id) (fun _ => not_mem_order own (by simp)) fun finishes => by
    simp at finishes

omit [DecidableEq I] in
theorem Follows.record (h : Follows ssd calls s) {i : I} {threads : I → NodeProgram (Except StoreNodeError Unit)}
    (turn : Pool.NotOvertaken (changing calls (calls i).identity .ssd) (changing calls (calls i).identity .sizes)
      (fun j => (calls j).bytes.length) s.history i)
    (room : Table.total (fun _ len => len)
      (s.world.ssdObjects.insert (calls i).identity (calls i).bytes.length) ≤ wordMax) :
    Follows ssd calls ⟨s.world.recordSsdObject (calls i).tenantId (calls i).cacheKey (calls i).bytes.length, threads,
      s.history ++ [(i, (calls i).recorded)]⟩ where
  dram id j last := h.dram id j (by rwa [latest_changing_of_ne (by simp)] at last)
  objects id := by
    rw [latest_changing_of_ne (by simp)]
    exact h.objects id
  sizes id := by
    rw [latest_changing (by simp)]
    split
    · rename_i same
      subst same
      exact Finmap.lookup_insert _
    · rename_i other
      rw [← h.sizes id]
      exact Finmap.lookup_insert_of_ne _ (Ne.symm other)
  total := room
  persisted id := ordered_changing_of_ne (h.persisted id) (by simp) (by simp)
  recorded id := ordered_changing (h.recorded id) (fun starts => by simp at starts) fun _ same => same ▸ turn

omit [DecidableEq I] in
theorem idlePool_follows (ssd : SsdStore) (calls : I → NodeWrite) (capacity ssdBytesCapacity : Nat) :
    Follows ssd calls (idlePool ssd calls capacity ssdBytesCapacity) where
  dram id i last := by cases last
  objects id := by
    have empty : ssd.payload (∅ : Files) id = none := by
      unfold SsdStore.payload SsdStore.readObject
      cases ssd.objectPath id.1 id.2 <;> rfl
    exact empty
  sizes id := rfl
  total := Nat.zero_le _
  persisted id i last := by cases last
  recorded id i last := by cases last

/-- The calls of a write, with what they have changed and how the tiers follow them. -/
theorem Follows.step (h : Follows ssd calls s) (decrypts : SsdStore.Decrypts) (goesOn : GoesOn ssd calls s)
    {label : Pool.Label I Empty NodeCall NodeCall.Reply} (turn : InTurn calls s label)
    (step : Pool.Step nodeServer s label s') : Follows ssd calls s' := by
  cases step with
  | @act action _ _ => exact action.elim
  | @call i request next reply world pending served =>
    have called := goesOn i
    rw [pending] at called
    obtain ⟨called, _⟩ := called
    obtain ⟨env, served⟩ := served
    cases request with
    | writePreallocatedChunk handle bytes =>
      obtain ⟨own, rfl, rfl⟩ := called
      rcases MemoryStore.writePreallocatedChunk_cases s.world.dram (calls i).handle (calls i).bytes with
        ⟨err, refused⟩ | ⟨length, fits, wrote⟩
      · simp only [serve, refused, Prod.mk.injEq] at served
        obtain ⟨rfl, rfl⟩ := served
        exact h.failed rfl fun _ => rfl
      · simp only [serve, wrote, Prod.mk.injEq] at served
        obtain ⟨rfl, rfl⟩ := served
        exact h.fill own length fits turn
    | persistObject tier tenantId cacheKey bytes =>
      obtain ⟨own, rfl, rfl, rfl, rfl⟩ := called
      cases stored : tier.persistObject s.world.files env.persist (calls i).tenantId (calls i).cacheKey
        (calls i).bytes with
      | mk result files =>
        simp only [serve, stored, Prod.mk.injEq] at served
        obtain ⟨rfl, rfl⟩ := served
        cases result with
        | error err =>
          exact h.failed rfl fun id => congrArg Except.toOption (SsdStore.readObject_of_failed stored none id.1 id.2)
        | ok => exact h.persist decrypts own stored turn
    | recordSsdObject tenantId cacheKey len =>
      obtain ⟨_, rfl, rfl, rfl⟩ := called
      simp only [serve, Prod.mk.injEq] at served
      obtain ⟨_, rfl⟩ := served
      exact h.record turn.1 turn.2
    | allocateAndWrite | readChunk | promoteToDram => exact called.elim

omit [Sha256] [ChaCha20Poly1305] in
/-- At rest a write has changed every stage or none. -/
theorem AtRest.changed (rest : AtRest s) (goesOn : GoesOn ssd calls s)
    {id : String × String} {stage : NodeStage} {i : I} (h : i ∈ Pool.order (changing calls id stage) s.history)
    (other : NodeStage) : i ∈ Pool.order (changing calls id other) s.history := by
  obtain ⟨event, member, changed⟩ := Pool.mem_order.mp h
  rcases rest i with fresh | finished
  · rw [fresh] at member
    cases member
  · have all : (Program.done (.ok ())).Meets ((calls i).Calls ssd) ((calls i).Finished ssd) (Pool.own s.history i) :=
      finished ▸ goesOn i
    have same := (changing_eq_true.mp changed).2
    rw [Pool.mem_order, all rfl]
    cases other with
    | dram => exact ⟨(calls i).filledDram, by simp, changing_eq_true.mpr ⟨rfl, same⟩⟩
    | ssd => exact ⟨(calls i).persisted ssd, by simp, changing_eq_true.mpr ⟨rfl, same⟩⟩
    | sizes => exact ⟨(calls i).recorded, by simp, changing_eq_true.mpr ⟨rfl, same⟩⟩

omit [Sha256] [ChaCha20Poly1305] in
/-- At rest the last write to change a stage brought what the last one brought to the next. -/
theorem AtRest.latest (rest : AtRest s) (goesOn : GoesOn ssd calls s)
    {V : Type} {value : I → V} {id : String × String} {first second : NodeStage} {i : I}
    (ordered : Pool.Ordered (changing calls id first) (changing calls id second) value s.history)
    (last : Pool.latest (changing calls id first) s.history = some i) :
    ∃ j, Pool.latest (changing calls id second) s.history = some j ∧ value i = value j := by
  have done := rest.changed goesOn (Pool.mem_of_latest last) second
  obtain ⟨j, latest⟩ := Pool.exists_latest done
  exact ⟨j, latest, ordered.agree last latest (rest.changed goesOn (Pool.mem_of_latest latest) first) done⟩

/-- While the writes of each identity keep their order, both tiers and the recorded sizes agree
whenever no write is in flight. -/
theorem tiers_agree (decrypts : SsdStore.Decrypts) {capacity ssdBytesCapacity : Nat}
    {trace : List (Pool.Label I Empty NodeCall NodeCall.Reply)}
    (run : Run (Guarded (InTurn calls) (Pool.Step nodeServer)) (idlePool ssd calls capacity ssdBytesCapacity) trace s)
    (rest : AtRest s) : Agrees ssd calls s := by
  have follows : Follows ssd calls s := by
    refine run.invariant (P := fun _ s => Follows ssd calls s) (idlePool_follows _ _ _ _) ?_
    intro trace s label s' past h ⟨turn, step⟩
    exact h.step decrypts (run_goesOn past.of_guarded) turn step
  have goesOn := run_goesOn run.of_guarded
  refine ⟨fun id i last => ?_, s.world.ssdObjects.keys, fun id => ?_, ?_⟩
  · obtain ⟨j, latest, same⟩ := rest.latest goesOn (follows.persisted id) last
    exact ⟨(calls i).bytes, follows.dram id i last, by rw [follows.objects, latest, Option.map_some, same]⟩
  · rw [Finmap.mem_keys, ← Finmap.lookup_isSome, follows.sizes, follows.objects, Option.isSome_map, Option.isSome_map,
      Option.isSome_iff_exists, Option.isSome_iff_exists]
    constructor
    · rintro ⟨i, last⟩
      exact Pool.exists_latest (rest.changed goesOn (Pool.mem_of_latest last) .ssd)
    · rintro ⟨i, last⟩
      exact Pool.exists_latest (rest.changed goesOn (Pool.mem_of_latest last) .sizes)
  · rw [ssdBytesUsed, Table.saturatingTotal_eq, Nat.min_eq_left follows.total, Table.total_eq_sum]
    refine Finset.sum_congr rfl fun id _ => ?_
    rw [follows.sizes, follows.objects]
    cases last : Pool.latest (changing calls id .ssd) s.history with
    | none =>
      cases latest : Pool.latest (changing calls id .sizes) s.history with
      | none => rfl
      | some i =>
        obtain ⟨j, found⟩ := Pool.exists_latest (rest.changed goesOn (Pool.mem_of_latest latest) .ssd)
        rw [last] at found
        cases found
    | some i =>
      obtain ⟨j, latest, same⟩ := rest.latest goesOn (follows.recorded id) last
      rw [latest]
      exact same.symm

/-- Two writes of one object to one chunk. -/
private def rivals : Bool → NodeWrite
  | false => ⟨⟨0, 2⟩, [1, 2], "tenant-a", "key"⟩
  | true => ⟨⟨0, 2⟩, [3, 4], "tenant-a", "key"⟩

private def rivalEnv : Bool → NodeEnv
  | false => .healthy 0
  | true => .healthy 1

/-- The next call of one of the two, with its reply. -/
private def upcoming (s : NodePool Bool) (i : Bool) : Option NodeEvent :=
  match s.threads i with
  | .done _ => none
  | .call request _ => some ⟨request, (s.world.serve (rivalEnv i) request).1⟩

private def advance (s : NodePool Bool) (i : Bool) : NodePool Bool :=
  match s.threads i with
  | .done _ => s
  | .call request next =>
    ⟨(s.world.serve (rivalEnv i) request).2, Function.update s.threads i (next (s.world.serve (rivalEnv i) request).1),
      s.history ++ [(i, ⟨request, (s.world.serve (rivalEnv i) request).1⟩)]⟩

private theorem advance_step {s : NodePool Bool} {i : Bool} {event : NodeEvent} (h : upcoming s i = some event) :
    Pool.Step nodeServer s (.call i event) (advance s i) := by
  unfold upcoming at h
  unfold advance
  cases pending : s.threads i with
  | done result => simp [pending] at h
  | call request next =>
    simp only [pending, Option.some.injEq] at h ⊢
    subst h
    exact .call pending ⟨rivalEnv i, rfl⟩

/-- Turns that may be taken are a run. -/
private theorem turns_run {guard : NodePool Bool → Pool.Label Bool Empty NodeCall NodeCall.Reply → Prop}
    {s : NodePool Bool} {turns : List Bool}
    (ok : Run.Allowed (fun s i => ∃ event ∈ upcoming s i, guard s (.call i event)) advance s turns) :
    ∃ trace, Run (Guarded guard (Pool.Step nodeServer)) s trace (turns.foldl advance s) := by
  induction turns generalizing s with
  | nil => exact ⟨[], .start⟩
  | cons i turns ih =>
    obtain ⟨⟨event, next, met⟩, later⟩ := ok
    obtain ⟨trace, run⟩ := ih later
    exact ⟨_, (Run.start.snoc ⟨met, advance_step next⟩).append run⟩

omit [Sha256] [ChaCha20Poly1305] in
/-- Two writes of one object that are both in flight and take turns. -/
theorem rivals_agree :
    let _ := sampleDigest
    let _ := sampleCipher
    ∃ trace s, Run (Guarded (InTurn rivals) (Pool.Step nodeServer)) (idlePool sampleSsd rivals 8 0) trace s ∧
      AtRest s ∧ Agrees sampleSsd rivals s := by
  let _ := sampleDigest
  let _ := sampleCipher
  have turns : Run.Allowed (fun s i => ∃ event ∈ upcoming s i, InTurn rivals s (.call i event)) advance
      (idlePool sampleSsd rivals 8 0) [false, true, false, true, false, true] :=
    ⟨⟨_, rfl, by decide⟩, ⟨_, rfl, by decide⟩, ⟨_, rfl, by decide⟩, ⟨_, rfl, by decide⟩, ⟨_, rfl, by decide⟩,
      ⟨_, rfl, by decide⟩, trivial⟩
  obtain ⟨trace, run⟩ := turns_run turns
  have rest : AtRest ([false, true, false, true, false, true].foldl advance (idlePool sampleSsd rivals 8 0)) := by
    intro i
    cases i
    · exact .inr rfl
    · exact .inr rfl
  exact ⟨trace, _, run, rest, tiers_agree sampleCipher_decrypts run rest⟩

omit [Sha256] [ChaCha20Poly1305] in
/-- The object that reaches DRAM last reaches the SSD tier first. -/
theorem overtaken_write_disagrees :
    ¬ ∀ [Sha256] [ChaCha20Poly1305] (ssd : SsdStore) (calls : Bool → NodeWrite) (capacity ssdBytesCapacity : Nat)
      (trace : List (Pool.Label Bool Empty NodeCall NodeCall.Reply)) (s : NodePool Bool), SsdStore.Decrypts →
      Run (Pool.Step nodeServer) (idlePool ssd calls capacity ssdBytesCapacity) trace s → AtRest s →
      Agrees ssd calls s := by
  intro agrees
  let _ := sampleDigest
  let _ := sampleCipher
  have turns : Run.Allowed (fun s i => ∃ event ∈ upcoming s i, True) advance
      (idlePool sampleSsd rivals 8 0) [false, true, true, false, true, false] :=
    ⟨⟨_, rfl, trivial⟩, ⟨_, rfl, trivial⟩, ⟨_, rfl, trivial⟩, ⟨_, rfl, trivial⟩, ⟨_, rfl, trivial⟩,
      ⟨_, rfl, trivial⟩, trivial⟩
  obtain ⟨trace, run⟩ := @turns_run _ _ (fun _ _ => True) _ _ turns
  have rest : AtRest ([false, true, true, false, true, false].foldl advance (idlePool sampleSsd rivals 8 0)) := by
    intro i
    cases i
    · exact .inr rfl
    · exact .inr rfl
  have agree := agrees sampleSsd rivals 8 0 trace _ sampleCipher_decrypts run.of_guarded rest
  obtain ⟨bytes, read, stored⟩ := agree.tiers ("tenant-a", "key") true rfl
  have dram : bytes = [3, 4] := (Except.ok.inj read).symm
  have ssd : bytes = [1, 2] := (Option.some.inj stored).symm
  cases dram.symm.trans ssd

end StoreNodeState
end Mooncache
