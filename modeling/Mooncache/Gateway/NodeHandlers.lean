import Mooncache.Foundation.Knowledge
import Mooncache.Gateway.Provenance
import Mooncache.Store.Recovery

/-! What a node's handlers do of the chunks and files of others, step by step: a file or a chunk holds what was
sent under its key, whichever handlers go on side by side. -/
namespace Mooncache
open NodeSystem (Restarts)

/-- A node with empty DRAM over an empty root, with or without an SSD tier. -/
def StoreNodeState.Fresh (node : StoreNodeState) : Prop :=
  (∃ capacity, node.dram = .withCapacity capacity) ∧ node.files = ∅

/-- What is in DRAM or on SSD was sent under its key. -/
structure NodeSent [ChaCha20Poly1305] (placed : Owners) (sent : Payloads) (node : StoreNodeState) : Prop where
  dram : ChunksSent placed sent node.dram
  files : ∀ ssd fault key data, node.ssd = some ssd →
    ssd.readObject node.files fault key.1.value key.2.value = .ok data → sent key data

/-- The extents that were given away, and what was sent. -/
abbrev Dealings := Owners × Payloads

/-- A handler may fill an extent with what was sent under its key, and the file of a key. -/
def NodeCall.May (tier : Option SsdStore) (k : Dealings) : NodeCall → Prop
  | .writePreallocatedChunk handle bytes =>
    ∃ key replica, k.1 key replica ∧ handle = .fromReplica replica ∧ k.2 key bytes
  | .persistObject ssd tenantId cacheKey bytes => tier = some ssd ∧ k.2 (⟨tenantId⟩, ⟨cacheKey⟩) bytes
  | .promoteToDram ssd _ _ => tier = some ssd
  | .readChunk _ | .recordSsdObject _ _ _ => True
  | .allocateAndWrite _ _ => False

/-- What is found on an extent or in a file was sent under its key. -/
def NodeCall.Tells (k : Dealings) : (call : NodeCall) → call.Reply → Prop
  | .readChunk handle, .ok data => ∀ key replica, k.1 key replica → handle = .fromReplica replica → k.2 key data
  | .promoteToDram _ tenantId cacheKey, .ok data => k.2 (⟨tenantId⟩, ⟨cacheKey⟩) data
  | _, _ => True

variable {I : Type}

section
variable [ChaCha20Poly1305] {placed given : Owners} {sent later : Payloads} {history : List (I × GatewayEvent)}
  {node after : StoreNodeState} {master : MasterState} {key : ObjectKey}

namespace NodeSent

theorem mono (h : NodeSent placed sent node) (more : placed ≤ given) (grown : sent ≤ later) :
    NodeSent given later node where
  dram := h.dram.mono more grown
  files ssd fault key data tier stored := grown _ _ (h.files ssd fault key data tier stored)

theorem fresh (h : node.Fresh) : NodeSent placed sent node := by
  obtain ⟨⟨capacity, dram⟩, files⟩ := h
  refine ⟨dram ▸ .withCapacity capacity, fun ssd fault key data _ stored => ?_⟩
  have stored := SsdStore.readObject_eq_ok stored
  rw [files] at stored
  unfold SsdStore.readObject at stored
  cases named : ssd.objectPath key.1.value key.2.value <;> simp [named] at stored

/-- Files outlive DRAM. -/
theorem restart (h : NodeSent placed sent node) (restarts : Restarts node after) :
    NodeSent placed sent after ∧ after.ssd = node.ssd := by
  obtain ⟨ssd, tier, restarted⟩ := restarts
  obtain rfl : after = ⟨.withCapacity node.dram.capacity, some ssd, ∅, node.ssdBytesCapacity, node.files⟩ := by
    unfold StoreNodeState.withSsd SsdStore.newWithKey at restarted
    by_cases key : ssd.cipher.length = 32
    · simpa [key] using restarted.symm
    · simp [key] at restarted
  exact ⟨⟨.withCapacity _, fun other fault key data same => h.files other fault key data (same ▸ tier)⟩, tier.symm⟩

/-- A file that is written holds what was sent under its key, and the others hold what they held. -/
private theorem persist (h : NodeSent placed sent node) (decrypts : SsdStore.Decrypts) {ssd : SsdStore}
    (tier : node.ssd = some ssd) {tenantId cacheKey : String} {bytes : List UInt8}
    (offered : sent (⟨tenantId⟩, ⟨cacheKey⟩) bytes) (env : PersistEnv) :
    NodeSent placed sent { node with files := (ssd.persistObject node.files env tenantId cacheKey bytes).2 } where
  dram := h.dram
  files other fault key data same stored := by
    obtain rfl : other = ssd := Option.some.inj (same.symm.trans tier)
    cases persisted : other.persistObject node.files env tenantId cacheKey bytes with
    | mk result left =>
    by_cases own : key = (⟨tenantId⟩, ⟨cacheKey⟩)
    · subst own
      rw [persisted] at stored
      cases result with
      | error err =>
        rw [SsdStore.readObject_of_failed persisted] at stored
        exact h.files _ fault _ data tier stored
      | ok =>
        cases (SsdStore.readObject_eq_ok stored).symm.trans (SsdStore.readObject_persist decrypts persisted)
        exact offered
    · have apart : (key.1.value, key.2.value) ≠ (tenantId, cacheKey) := fun same => by
        obtain ⟨⟨tenant⟩, ⟨name⟩⟩ := key
        cases same
        exact own rfl
      rw [SsdStore.readObject_persist_of_ne other node.files env bytes fault apart] at stored
      exact h.files other fault key data tier stored

variable [Sha256]

/-- Every step of a handler keeps it, and finds only what was sent. -/
theorem serve (h : NodeSent placed sent node) (decrypts : SsdStore.Decrypts) (extents : Extents placed history master)
    {call : NodeCall} (may : call.May node.ssd (placed, sent)) (env : NodeEnv) :
    NodeSent placed sent (node.serve env call).2 ∧ (node.serve env call).2.ssd = node.ssd ∧
      call.Tells (placed, sent) (node.serve env call).1 := by
  cases call with
  | allocateAndWrite => exact may.elim
  | writePreallocatedChunk handle bytes =>
    obtain ⟨key, replica, mine, rfl, offered⟩ := may
    exact ⟨⟨h.dram.write extents mine offered, h.files⟩, rfl, trivial⟩
  | readChunk handle =>
    refine ⟨h, rfl, ?_⟩
    cases found : node.dram.readChunk handle with
    | error err => simp [StoreNodeState.serve, NodeCall.Tells, found]
    | ok data =>
      simp only [StoreNodeState.serve, NodeCall.Tells, found]
      rintro key replica mine rfl
      exact h.dram.read extents mine found
  | persistObject ssd tenantId cacheKey bytes =>
    obtain ⟨tier, offered⟩ := may
    exact ⟨h.persist decrypts tier offered env.persist, rfl, trivial⟩
  | promoteToDram ssd tenantId cacheKey =>
    refine ⟨h, rfl, ?_⟩
    cases found : ssd.promoteToDram node.files env.readFault tenantId cacheKey with
    | error err => simp [StoreNodeState.serve, NodeCall.Tells, found]
    | ok data =>
      simp only [StoreNodeState.serve, NodeCall.Tells, found]
      exact h.files ssd env.readFault (⟨tenantId⟩, ⟨cacheKey⟩) data may found
  | recordSsdObject => exact ⟨⟨h.dram, h.files⟩, rfl, trivial⟩

end NodeSent
end

/-! The handlers of reads and writes. -/

namespace NodeRequest
variable {tier : Option SsdStore} {k : Dealings} {key : ObjectKey} {replica : ReplicaDescriptor} {bytes : List UInt8}

/-- A write of what was sent under a key goes to an extent of the key, and to the file of the key. -/
theorem writePreallocated_lawful (mine : k.1 key replica) (offered : k.2 key bytes) :
    ((NodeRequest.writePreallocated (.fromReplica replica) bytes (some key.1.value) (some key.2.value)).program
      tier).Lawful (NodeCall.May tier) NodeCall.Tells (fun _ _ => True) k := by
  have written : (StoreNode.writePreallocated tier (.fromReplica replica) bytes (some key.1.value)
      (some key.2.value)).Lawful (NodeCall.May tier) NodeCall.Tells (fun _ _ => True) k := by
    intro k' le
    refine ⟨⟨key, replica, le.1 _ _ mine, rfl, le.2 _ _ offered⟩, fun reply _ => ?_⟩
    cases reply with
    | error err => exact fun _ _ => trivial
    | ok =>
      cases tier with
      | none => exact fun _ _ => trivial
      | some ssd =>
        intro later after
        refine ⟨⟨rfl, (le.trans after).2 _ _ offered⟩, fun reply _ => ?_⟩
        cases reply with
        | error err => exact fun _ _ => trivial
        | ok => exact fun _ _ => ⟨trivial, fun _ _ _ _ => trivial⟩
  exact written.bind fun _ _ _ _ _ _ => trivial

/-- A read of an extent of a key returns what was sent under the key. -/
theorem readChunk_lawful (mine : k.1 key replica) :
    ((NodeRequest.readChunk (.fromReplica replica) (some key.1.value) (some key.2.value)).program tier).Lawful
      (NodeCall.May tier) NodeCall.Tells (fun k answer => ∀ response, answer = .ok (.read response) →
        k.2 key response.data) k := by
  have read : (StoreNode.readChunk tier (.fromReplica replica) (some key.1.value) (some key.2.value)).Lawful
      (NodeCall.May tier) NodeCall.Tells (fun k result => ∀ response, result = .ok response → k.2 key response.data) k := by
    intro k' le
    refine ⟨trivial, fun reply found => ?_⟩
    cases reply with
    | ok data =>
      rintro later after response ⟨⟩
      exact after.2 _ _ (found key replica (le.1 _ _ mine) rfl)
    | error err =>
      cases tier with
      | none => cases err <;> exact fun _ _ _ same => by cases same
      | some ssd =>
        cases err
        case invalidHandle | unwrittenChunk =>
          intro middle reached
          refine ⟨rfl, fun reply stored => ?_⟩
          cases reply with
          | error err => exact fun _ _ _ same => by cases same
          | ok data =>
            intro later after
            have placed := ((le.trans reached).trans after).1 _ _ mine
            refine ⟨⟨key, replica, placed, rfl, after.2 _ _ stored⟩, fun reply _ => ?_⟩
            cases reply with
            | error err => exact fun _ _ _ same => by cases same
            | ok =>
              rintro last behind response ⟨⟩
              exact (after.trans behind).2 _ _ stored
        all_goals exact fun _ _ _ same => by cases same
  refine read.bind fun k' _ result found => ?_
  cases result with
  | error err => exact fun _ _ _ same => by cases same
  | ok response =>
    rintro later after _ ⟨⟩
    exact after.2 _ _ (found response rfl)

end NodeRequest
end Mooncache
