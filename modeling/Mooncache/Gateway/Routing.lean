import Mooncache.Gateway.Clients
import Mathlib.Data.Set.Subsingleton

/-! Writes are routed by node id, reads are not: which node sets cannot tell. -/
namespace Mooncache
namespace StoreClient

section
variable [Sha256]

private def firstByte : ChunkHandle := ⟨0, 1⟩

private def byteAt (nodeId : String) (byte : UInt8) : ChunkWrite :=
  ⟨nodeId, ⟨""⟩, ⟨""⟩, firstByte, [byte]⟩

omit [Sha256] in
private theorem firstByte_fits {store : MemoryStore} (h : store.capacity ≠ 0) : store.Fits firstByte :=
  ⟨Nat.one_pos, by decide, Nat.one_le_iff_ne_zero.mpr h⟩

theorem local_write_ok {store after : MemoryStore} {chunk : ChunkWrite}
    (h : localStoreClient.write store chunk = (.ok (), after)) :
    chunk.bytes.length = chunk.handle.len ∧ store.Fits chunk.handle ∧
      after = store.filled chunk.handle chunk.bytes := by
  simp only [write, localStoreClient] at h
  rcases store.writePreallocatedChunk_cases chunk.handle chunk.bytes with ⟨err, he⟩ | ⟨same, fits, he⟩
  · rw [he] at h
    cases h
  · rw [he] at h
    cases h
    exact ⟨same, fits, rfl⟩

theorem local_write_of_fits {store : MemoryStore} (chunk : ChunkWrite)
    (same : chunk.bytes.length = chunk.handle.len) (fits : store.Fits chunk.handle) :
    localStoreClient.write store chunk = (.ok (), store.filled chunk.handle chunk.bytes) := by
  simp only [write, localStoreClient, MemoryStore.writePreallocatedChunk_of_fits same fits]

/-- The local client agrees exactly when there is one node at most, or no room at all. -/
theorem local_routingAgrees_iff (nodeIds : Set String) (store : MemoryStore) :
    localStoreClient.RoutingAgrees nodeIds store ↔ nodeIds.Subsingleton ∨ store.capacity = 0 := by
  constructor
  · intro agrees
    by_contra h
    rw [not_or] at h
    obtain ⟨several, room⟩ := h
    rw [Set.not_subsingleton_iff] at several
    obtain ⟨a, ha, b, hb, hne⟩ := several
    have fits := firstByte_fits room
    have refilled : (store.filled firstByte [0]).Fits firstByte :=
      firstByte_fits (by rwa [MemoryStore.filled_capacity rfl fits])
    have written : localStoreClient.writeAll store [byteAt a 0, byteAt b 1] =
        some ((store.filled firstByte [0]).filled firstByte [1]) :=
      (writeAll_cons (local_write_of_fits (byteAt a 0) rfl fits) _).trans
        (writeAll_cons (local_write_of_fits (byteAt b 1) rfl refilled) [])
    obtain ⟨found, read, bytes⟩ := agrees [] (byteAt a 0) [byteAt b 1] _ (by simp [byteAt, ha, hb]) written
      (by simp [byteAt, hne.symm]) ⟨a, 0, 1⟩ rfl rfl
    have last : ((store.filled firstByte [0]).filled firstByte [1]).readChunk firstByte = .ok [1] :=
      MemoryStore.readChunk_filled rfl refilled
    change localStoreClient.readChunk _ _ _ firstByte = _ at read
    simp only [localStoreClient, last] at read
    cases read
    simp [byteAt] at bytes
  · rintro (one | empty)
    · rcases nodeIds.eq_empty_or_nonempty with rfl | ⟨home, hm⟩
      · intro earlier chunk later after known
        exact absurd (known chunk (by simp)) (Set.notMem_empty _)
      · refine OneStore.routingAgrees
          { keeps := fun _ => True, home, view := id, start := trivial, write_ok := ?_, read_ok := ?_ }
        · intro s chunk s' _ known written
          obtain ⟨same, fits, filled⟩ := local_write_ok written
          exact ⟨trivial, one known hm, same, fits, filled⟩
        · intro s tenantId cacheKey handle bytes _ read
          simp only [id_eq] at read
          simp only [localStoreClient, read]
    · refine OneStore.routingAgrees
        { keeps := fun s => s.capacity = 0, home := "", view := id, start := empty, write_ok := ?_,
          read_ok := ?_ }
      · intro s chunk s' full _ written
        obtain ⟨_, fits, _⟩ := local_write_ok written
        have room := fits.2.2
        have positive := fits.1
        omega
      · intro s tenantId cacheKey handle bytes _ read
        simp only [id_eq] at read
        simp only [localStoreClient, read]

theorem remote_write_ok {nodeUrls : NodeUrls} {servers after : String → MemoryStore} {chunk : ChunkWrite}
    (h : (remoteStoreClient nodeUrls).write servers chunk = (.ok (), after)) :
    ∃ baseUrl, nodeUrls.entries.lookup chunk.nodeId = some baseUrl ∧
      chunk.bytes.length = chunk.handle.len ∧ (servers baseUrl).Fits chunk.handle ∧
      after = Function.update servers baseUrl ((servers baseUrl).filled chunk.handle chunk.bytes) := by
  simp only [write, remoteStoreClient] at h
  split at h
  · cases h
  · rename_i baseUrl hu
    rcases (servers baseUrl).writePreallocatedChunk_cases chunk.handle chunk.bytes with
      ⟨err, he⟩ | ⟨same, fits, he⟩
    · rw [he] at h
      cases h
    · rw [he] at h
      cases h
      exact ⟨baseUrl, hu, same, fits, rfl⟩

theorem remote_write_of_fits (nodeUrls : NodeUrls) {servers : String → MemoryStore} (chunk : ChunkWrite)
    {baseUrl : String} (known : nodeUrls.entries.lookup chunk.nodeId = some baseUrl)
    (same : chunk.bytes.length = chunk.handle.len) (fits : (servers baseUrl).Fits chunk.handle) :
    (remoteStoreClient nodeUrls).write servers chunk =
      (.ok (), Function.update servers baseUrl ((servers baseUrl).filled chunk.handle chunk.bytes)) := by
  simp only [write, remoteStoreClient, known, MemoryStore.writePreallocatedChunk_of_fits same fits]

/-- A read goes to the node the map yields first. -/
theorem remote_readChunk_eq_ok {first : String × String} {rest : List (String × String)}
    {nodup : ((first :: rest).map Prod.fst).Nodup} {servers : String → MemoryStore} {tenantId : TenantId}
    {cacheKey : CacheKey} {handle : ChunkHandle} {found : StoreChunk}
    (h : (remoteStoreClient ⟨first :: rest, nodup⟩).readChunk servers tenantId cacheKey handle = .ok found) :
    (servers first.2).readChunk handle = .ok found.bytes := by
  simp only [remoteStoreClient, List.head?_cons] at h
  split at h
  · rename_i bytes hr
    cases h
    exact hr
  · cases h

/-- Two ids that lead to one server: the write to the first node replaces the other's byte. -/
private theorem shared_server_disagrees {nodeUrls : NodeUrls} {servers : String → MemoryStore}
    {nodeId other baseUrl : String} (known : nodeUrls.entries.lookup nodeId = some baseUrl)
    (knownOther : nodeUrls.entries.lookup other = some baseUrl) (hne : other ≠ nodeId)
    (members : nodeId ∈ nodeUrls.ids ∧ other ∈ nodeUrls.ids)
    (reads : ∀ servers : String → MemoryStore, ∀ tenantId cacheKey handle found,
      (remoteStoreClient nodeUrls).readChunk servers tenantId cacheKey handle = .ok found →
        (servers baseUrl).readChunk handle = .ok found.bytes)
    (room : (servers baseUrl).capacity ≠ 0) :
    ¬ (remoteStoreClient nodeUrls).RoutingAgrees nodeUrls.ids servers := by
  intro agrees
  have fits := firstByte_fits room
  have refilled : ((servers baseUrl).filled firstByte [0]).Fits firstByte :=
    firstByte_fits (by rwa [MemoryStore.filled_capacity rfl fits])
  have first := remote_write_of_fits nodeUrls (byteAt nodeId 0) known rfl fits
  have second := remote_write_of_fits nodeUrls (byteAt other 1) knownOther rfl
    (show (Function.update servers baseUrl ((servers baseUrl).filled firstByte [0]) baseUrl).Fits firstByte by
      rwa [Function.update_self])
  have written := (writeAll_cons first [byteAt other 1]).trans (writeAll_cons second [])
  obtain ⟨found, read, bytes⟩ := agrees [] (byteAt nodeId 0) [byteAt other 1] _
    (by simp [byteAt, members]) written (by simp [byteAt, hne]) ⟨nodeId, 0, 1⟩ rfl rfl
  have last : (((servers baseUrl).filled firstByte [0]).filled firstByte [1]).readChunk firstByte = .ok [1] :=
    MemoryStore.readChunk_filled rfl refilled
  have read := reads _ _ _ _ _ read
  simp only [Function.update_self, bytes] at read
  cases last.symm.trans read

/-- A write to a server that reads never ask is not found again. -/
private theorem other_server_disagrees {nodeUrls : NodeUrls} {servers : String → MemoryStore}
    {nodeId baseUrl readUrl : String} (known : nodeUrls.entries.lookup nodeId = some baseUrl)
    (hne : readUrl ≠ baseUrl) (member : nodeId ∈ nodeUrls.ids)
    (reads : ∀ servers : String → MemoryStore, ∀ tenantId cacheKey handle found,
      (remoteStoreClient nodeUrls).readChunk servers tenantId cacheKey handle = .ok found →
        (servers readUrl).readChunk handle = .ok found.bytes)
    (room : (servers baseUrl).capacity ≠ 0) :
    ¬ (remoteStoreClient nodeUrls).RoutingAgrees nodeUrls.ids servers := by
  intro agrees
  obtain ⟨byte, unread⟩ : ∃ byte, (servers readUrl).readChunk firstByte ≠ .ok [byte] := by
    by_contra all
    push Not at all
    cases (all 0).symm.trans (all 1)
  have first := remote_write_of_fits nodeUrls (byteAt nodeId byte) known rfl (firstByte_fits room)
  obtain ⟨found, read, bytes⟩ := agrees [] (byteAt nodeId byte) [] _ (by simp [byteAt, member])
    (writeAll_cons first []) (by simp) ⟨nodeId, 0, 1⟩ rfl rfl
  have read := reads _ _ _ _ _ read
  rw [Function.update_of_ne hne, bytes] at read
  exact unread read

/-- The remote client agrees exactly when no node but the first can hold a byte. -/
theorem remote_routingAgrees_iff (nodeUrls : NodeUrls) (servers : String → MemoryStore) :
    (remoteStoreClient nodeUrls).RoutingAgrees nodeUrls.ids servers ↔
      ∀ entry ∈ nodeUrls.entries.tail, (servers entry.2).capacity = 0 := by
  obtain ⟨entries, nodup⟩ := nodeUrls
  constructor
  · rintro agrees entry hm
    by_contra room
    cases entries with
    | nil => simp at hm
    | cons first rest =>
      have other : first.1 ≠ entry.1 := by
        simp only [List.map_cons, List.nodup_cons] at nodup
        exact fun he => nodup.1 (he ▸ List.mem_map_of_mem hm)
      have known := lookup_of_mem nodup (List.mem_cons_of_mem first hm)
      have knownFirst := lookup_of_mem nodup (List.mem_cons_self (a := first) (l := rest))
      have member : entry.1 ∈ NodeUrls.ids ⟨first :: rest, nodup⟩ :=
        List.mem_map_of_mem (List.mem_cons_of_mem first hm)
      have memberFirst : first.1 ∈ NodeUrls.ids ⟨first :: rest, nodup⟩ :=
        List.mem_map_of_mem List.mem_cons_self
      by_cases shared : entry.2 = first.2
      · rw [← shared] at knownFirst
        exact shared_server_disagrees known knownFirst other ⟨member, memberFirst⟩
          (fun servers _ _ _ _ read => shared ▸ remote_readChunk_eq_ok read) room agrees
      · exact other_server_disagrees known (Ne.symm shared) member
          (fun _ _ _ _ _ read => remote_readChunk_eq_ok read) room agrees
  · intro empty
    cases entries with
    | nil =>
      intro earlier chunk later after known
      exact absurd (known chunk (by simp)) (by simp [NodeUrls.ids])
    | cons first rest =>
      refine OneStore.routingAgrees
        { keeps := fun s => ∀ entry ∈ rest, (s entry.2).capacity = 0, home := first.1,
          view := fun s => s first.2, start := empty, write_ok := ?_, read_ok := ?_ }
      · intro s chunk s' full known written
        obtain ⟨baseUrl, hu, same, fits, rfl⟩ := remote_write_ok written
        obtain ⟨entry, hm, he⟩ := List.mem_map.mp known
        have found := lookup_of_mem nodup hm
        rw [he, hu, Option.some.injEq] at found
        subst found
        have homeEntry : entry = first := by
          rcases List.mem_cons.mp hm with he | hr
          · exact he
          · have none := full entry hr
            have room := fits.2.2
            have positive := fits.1
            omega
        subst homeEntry
        refine ⟨fun other hr => ?_, he.symm, same, fits, by simp⟩
        rcases eq_or_ne other.2 entry.2 with shared | apart
        · rw [shared, Function.update_self, MemoryStore.filled_capacity same fits, ← shared]
          exact full other hr
        · rw [Function.update_of_ne apart]
          exact full other hr
      · intro s tenantId cacheKey handle bytes _ read
        simp only [remoteStoreClient, List.head?_cons, read]

/-- Writing and reading agree exactly on the node sets that leave reads no choice. -/
theorem routingAgrees_iff (nodeIds : Set String) (store : MemoryStore) (nodeUrls : NodeUrls)
    (servers : String → MemoryStore) :
    (localStoreClient.RoutingAgrees nodeIds store ↔ nodeIds.Subsingleton ∨ store.capacity = 0) ∧
    ((remoteStoreClient nodeUrls).RoutingAgrees nodeUrls.ids servers ↔
      ∀ entry ∈ nodeUrls.entries.tail, (servers entry.2).capacity = 0) :=
  ⟨local_routingAgrees_iff nodeIds store, remote_routingAgrees_iff nodeUrls servers⟩

end

private def twoNodeUrls : NodeUrls where
  entries := [("store-0", "http://127.0.0.1:8082"), ("store-1", "http://127.0.0.1:8083")]
  nodup := by decide

/-- With two nodes a chunk written to the second is not found again. -/
theorem two_nodes_disagree : ¬ (@remoteStoreClient shortTextDigests twoNodeUrls).RoutingAgrees twoNodeUrls.ids
    (fun _ => .withCapacity 16) := by
  intro agrees
  obtain ⟨found, read, _⟩ := agrees [] ⟨"store-1", ⟨"tenant-a"⟩, ⟨"key"⟩, ⟨0, 2⟩, [104, 105]⟩ [] _
    (by simp [NodeUrls.ids, twoNodeUrls]) rfl (by simp) ⟨"store-1", 0, 2⟩ rfl rfl
  let _ := shortTextDigests
  have asked := (MemoryStore.readChunk_eq_ok.mp (remote_readChunk_eq_ok read)).1
  simp [MemoryStore.withCapacity] at asked

end StoreClient
end Mooncache
