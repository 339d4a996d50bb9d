import Mooncache.Foundation.Urlencoded
import Mooncache.Gateway.Artifacts
import Mooncache.Master.Handlers
import Mooncache.Store.Memory

/-! How the remote clients name an object: reads in a query string, writes in a JSON body. -/
namespace Mooncache

namespace RemoteMasterClient

/-- The path that `get_replica_list` asks for, after the base URL. -/
def getReplicaListPath (tenantId : TenantId) (cacheKey : CacheKey) : String :=
  "/objects/replicas?tenant_id=" ++ tenantId.value ++ "&cache_key=" ++ cacheKey.value

/-- The members in the order of their names, as `json!` holds them. -/
def putStartBody (tenantId : TenantId) (cacheKey : CacheKey) (len replicaCount : Nat) : Value :=
  .object [("cache_key", .string cacheKey.value), ("len", .number (.posInt len)),
    ("replica_count", .number (.posInt replicaCount)), ("tenant_id", .string tenantId.value)]

end RemoteMasterClient

namespace RemoteStoreClient

def readChunkPath (tenantId : TenantId) (cacheKey : CacheKey) (handle : ChunkHandle) : String :=
  "/chunks/" ++ toString handle.offset ++ "/" ++ toString handle.len ++ "?tenant_id=" ++ tenantId.value ++
    "&cache_key=" ++ cacheKey.value

def writePreallocatedChunkBody (tenantId : TenantId) (cacheKey : CacheKey) (handle : ChunkHandle)
    (bytes : List UInt8) : Value :=
  .object [("cache_key", .string cacheKey.value),
    ("data", .array (bytes.map fun b => .number (.posInt b.toNat))), ("len", .number (.posInt handle.len)),
    ("offset", .number (.posInt handle.offset)), ("tenant_id", .string tenantId.value)]

end RemoteStoreClient

/-- The query of a path, as it is sent. -/
def pathQuery (path : String) : List UInt8 := urlQuery ((path.toList.dropWhile (· ≠ '?')).drop 1)

/-- The values that a query gives to a name. -/
def queryValues (pairs : List (List Char × List Char)) (name : String) : List String :=
  (pairs.filter (·.1 = name.toList)).map fun pair => String.ofList pair.2

/-- A field of a query type; one that is given twice is refused. -/
def requiredField (pairs : List (List Char × List Char)) (name : String) : Option String :=
  match queryValues pairs name with
  | [value] => some value
  | _ => none

def optionalField (pairs : List (List Char × List Char)) (name : String) : Option (Option String) :=
  match queryValues pairs name with
  | [] => some none
  | [value] => some (some value)
  | _ => none

/-- The extractor `Query`; names it does not know are ignored. -/
def ReplicaListQuery.fromQuery (query : List UInt8) : Option ReplicaListQuery := do
  let tenantId ← requiredField (formPairs query) "tenant_id"
  let cacheKey ← requiredField (formPairs query) "cache_key"
  return ⟨tenantId, cacheKey⟩

structure ReadChunkQuery where
  tenantId : Option String
  cacheKey : Option String
  deriving DecidableEq

def ReadChunkQuery.fromQuery (query : List UInt8) : Option ReadChunkQuery := do
  let tenantId ← optionalField (formPairs query) "tenant_id"
  let cacheKey ← optionalField (formPairs query) "cache_key"
  return ⟨tenantId, cacheKey⟩

def Value.asByte (value : Value) : Option UInt8 := do
  let n ← value.asUnsigned
  if n < 256 then some (UInt8.ofNat n) else none

def Value.asBytes : Value → Option (List UInt8)
  | array items => items.mapM asByte
  | _ => none

/-- A member that may be missing or `null`. -/
def Value.optionalStr (value : Value) (name : String) : Option (Option String) :=
  match value.get name with
  | none | some null => some none
  | some (string text) => some (some text)
  | some _ => none

/-- The extractor `Json`. A member given twice is refused there and not seen here: no client writes one. -/
def PutStartRequest.fromValue (body : Value) : Option PutStartRequest := do
  let tenantId ← (← body.get "tenant_id").asStr
  let cacheKey ← (← body.get "cache_key").asStr
  let len ← (← body.get "len").asUnsigned
  let replicaCount ← (← body.get "replica_count").asUnsigned
  return ⟨tenantId, cacheKey, len, replicaCount⟩

structure PreallocatedWriteRequest where
  tenantId : Option String
  cacheKey : Option String
  offset : Nat
  len : Nat
  data : List UInt8

def PreallocatedWriteRequest.fromValue (body : Value) : Option PreallocatedWriteRequest := do
  let tenantId ← body.optionalStr "tenant_id"
  let cacheKey ← body.optionalStr "cache_key"
  let offset ← (← body.get "offset").asUnsigned
  let len ← (← body.get "len").asUnsigned
  let data ← (← body.get "data").asBytes
  return ⟨tenantId, cacheKey, offset, len, data⟩

/-- The object that the two texts of a request name to the master. -/
def Names (tenantText keyText : String) (tenantId : TenantId) (cacheKey : CacheKey) : Prop :=
  TenantId.parse tenantText = .ok tenantId ∧ CacheKey.fromHex keyText = .ok cacheKey

section
variable [JsonWriter] [JsonReader]

/-- What the handlers of both servers decode from the requests of both clients is the object they were given. -/
structure IdentitySurvives (tenantId : TenantId) (cacheKey : CacheKey) (len replicaCount : Nat)
    (handle : ChunkHandle) (bytes : List UInt8) : Prop where
  listed : ∃ query, ReplicaListQuery.fromQuery
    (pathQuery (RemoteMasterClient.getReplicaListPath tenantId cacheKey)) = some query ∧
      Names query.tenantId query.cacheKey tenantId cacheKey
  read : ReadChunkQuery.fromQuery (pathQuery (RemoteStoreClient.readChunkPath tenantId cacheKey handle)) =
    some ⟨some tenantId.value, some cacheKey.value⟩
  started : ∃ found body,
    fromSlice (toVec (RemoteMasterClient.putStartBody tenantId cacheKey len replicaCount)) = .ok found ∧
      PutStartRequest.fromValue found = some body ∧ Names body.tenantId body.cacheKey tenantId cacheKey
  written : ∃ found body,
    fromSlice (toVec (RemoteStoreClient.writePreallocatedChunkBody tenantId cacheKey handle bytes)) = .ok found ∧
      PreallocatedWriteRequest.fromValue found = some body ∧
      body.tenantId = some tenantId.value ∧ body.cacheKey = some cacheKey.value

end

namespace Names
variable {tenantText keyText : String} {tenantId : TenantId} {cacheKey : CacheKey}

theorem values (h : Names tenantText keyText tenantId cacheKey) :
    tenantText = tenantId.value ∧ keyText = cacheKey.value := by
  have parsed := TenantId.parse_eq_ok h.1
  have hex := (CacheKey.fromHex_eq_ok.mp h.2).2
  subst parsed hex
  exact ⟨rfl, rfl⟩

end Names

/-! The query string. -/

theorem tenantField : FieldName "tenant_id".toList := by decide

theorem keyField : FieldName "cache_key".toList := by decide

private def objectPairs (tenantId : TenantId) (cacheKey : CacheKey) : List Char :=
  pairText "tenant_id".toList (tenantId.value.toList ++ '&' :: pairText "cache_key".toList cacheKey.value.toList)

/-- Both clients ask for the same pairs. -/
private theorem pathQuery_of_front (front : String) (absent : '?' ∉ front.toList) (tenantId : TenantId)
    (cacheKey : CacheKey) : pathQuery (front ++ "?tenant_id=" ++ tenantId.value ++ "&cache_key=" ++ cacheKey.value) =
      urlQuery (objectPairs tenantId cacheKey) := by
  have text : (front ++ "?tenant_id=" ++ tenantId.value ++ "&cache_key=" ++ cacheKey.value).toList =
      front.toList ++ '?' :: objectPairs tenantId cacheKey := by
    simp [objectPairs, pairText]
  have others : ∀ c ∈ front.toList, decide (c ≠ '?') = true := fun c member =>
    decide_eq_true fun same => absent (same ▸ member)
  rw [pathQuery, text, List.dropWhile_append_of_pos others]
  rfl

theorem pathQuery_getReplicaList (tenantId : TenantId) (cacheKey : CacheKey) :
    pathQuery (RemoteMasterClient.getReplicaListPath tenantId cacheKey) =
      urlQuery (objectPairs tenantId cacheKey) := by
  have path : RemoteMasterClient.getReplicaListPath tenantId cacheKey =
      "/objects/replicas" ++ "?tenant_id=" ++ tenantId.value ++ "&cache_key=" ++ cacheKey.value := rfl
  rw [path]
  exact pathQuery_of_front "/objects/replicas" (by decide) tenantId cacheKey

private theorem not_mem_toString (n : Nat) : '?' ∉ (toString n).toList := by
  intro member
  have digit : Char.isDigit '?' = true := by
    exact Nat.isDigit_of_mem_toDigits (b := 10) (n := n) (by decide) (by decide) (by simpa using member)
  exact absurd digit (by decide)

theorem pathQuery_readChunk (tenantId : TenantId) (cacheKey : CacheKey) (handle : ChunkHandle) :
    pathQuery (RemoteStoreClient.readChunkPath tenantId cacheKey handle) =
      urlQuery (objectPairs tenantId cacheKey) := by
  refine pathQuery_of_front ("/chunks/" ++ toString handle.offset ++ "/" ++ toString handle.len) ?_ tenantId cacheKey
  have chunks : '?' ∉ "/chunks/".toList := by decide
  have slash : '?' ∉ "/".toList := by decide
  simp only [String.toList_append, List.mem_append, not_or]
  exact ⟨⟨⟨chunks, not_mem_toString _⟩, slash⟩, not_mem_toString _⟩

theorem not_hex_of_lost {c : Char} (h : lostInQuery c = true) : isLowerHex c = false := by
  rcases of_decide_eq_true h with rfl | rfl | rfl | rfl | rfl | rfl <;> decide

theorem survives_of_hex {text : String} {cacheKey : CacheKey} (h : CacheKey.fromHex text = .ok cacheKey) :
    SurvivesQuery cacheKey.value.toList := by
  obtain ⟨⟨_, hex⟩, rfl⟩ := CacheKey.fromHex_eq_ok.mp h
  refine ⟨fun c member => ?_, hasEscape_of_no_percent fun member => ?_⟩
  · by_contra lost
    have other := not_hex_of_lost (Bool.eq_true_of_not_eq_false lost)
    exact Bool.false_ne_true (other.symm.trans (List.all_eq_true.mp hex c member))
  · exact absurd (List.all_eq_true.mp hex _ member) (by decide)

theorem requiredField_eq_some {pairs : List (List Char × List Char)} {name value : String} :
    requiredField pairs name = some value ↔ queryValues pairs name = [value] := by
  unfold requiredField
  split
  · rename_i found values
    rw [values, Option.some.injEq, List.cons.injEq, eq_self_iff_true, and_true]
  · rename_i other
    refine ⟨fun h => ?_, fun h => absurd h (other value)⟩
    cases h

theorem optionalField_eq_some {pairs : List (List Char × List Char)} {name value : String} :
    optionalField pairs name = some (some value) ↔ queryValues pairs name = [value] := by
  unfold optionalField
  split
  · rename_i values
    simp [values]
  · rename_i found values
    simp [values]
  · rename_i none other
    refine ⟨fun h => ?_, fun h => absurd h (other value)⟩
    cases h

section
variable {tenantId : TenantId} {cacheKey : CacheKey}

/-- The tenant id is read from the first pair, which ends at the first separator. -/
theorem survives_of_tenant
    (h : queryValues (formPairs (urlQuery (objectPairs tenantId cacheKey))) "tenant_id" = [tenantId.value]) :
    SurvivesQuery tenantId.value.toList := by
  obtain ⟨rest, pairs⟩ := formPairs_urlQuery_first tenantField tenantId.value.toList
    (pairText "cache_key".toList cacheKey.value.toList)
  rw [objectPairs, pairs, queryValues, List.filter_cons_of_pos (by simp), List.map_cons, List.cons.injEq] at h
  have text := congrArg String.toList h.1
  rw [String.toList_ofList] at text
  exact formText_carried.mp text

theorem queryValues_of_survives (tenant : SurvivesQuery tenantId.value.toList)
    (key : SurvivesQuery cacheKey.value.toList) :
    queryValues (formPairs (urlQuery (objectPairs tenantId cacheKey))) "tenant_id" = [tenantId.value] ∧
      queryValues (formPairs (urlQuery (objectPairs tenantId cacheKey))) "cache_key" = [cacheKey.value] := by
  have other : "tenant_id".toList ≠ "cache_key".toList := by decide
  rw [objectPairs, formPairs_urlQuery_two tenantField keyField tenant key]
  simp [queryValues]

theorem fromQuery_readChunk {handle : ChunkHandle} (tenant : SurvivesQuery tenantId.value.toList)
    (key : SurvivesQuery cacheKey.value.toList) :
    ReadChunkQuery.fromQuery (pathQuery (RemoteStoreClient.readChunkPath tenantId cacheKey handle)) =
      some ⟨some tenantId.value, some cacheKey.value⟩ := by
  obtain ⟨tenant, key⟩ := queryValues_of_survives tenant key
  rw [pathQuery_readChunk, ReadChunkQuery.fromQuery, optionalField_eq_some.mpr tenant, optionalField_eq_some.mpr key]
  rfl

theorem listed_iff {tenantText keyText : String} (parsed : TenantId.parse tenantText = .ok tenantId)
    (hex : CacheKey.fromHex keyText = .ok cacheKey) :
    (∃ query, ReplicaListQuery.fromQuery (pathQuery (RemoteMasterClient.getReplicaListPath tenantId cacheKey)) =
      some query ∧ Names query.tenantId query.cacheKey tenantId cacheKey) ↔
      SurvivesQuery tenantId.value.toList := by
  rw [pathQuery_getReplicaList]
  constructor
  · rintro ⟨query, read, names⟩
    have tenant := names.values.1
    simp only [ReplicaListQuery.fromQuery, Option.bind_eq_bind, Option.bind_eq_some_iff, Option.pure_def,
      Option.some.injEq] at read
    obtain ⟨tenantText, found, keyText, _, rfl⟩ := read
    rw [show tenantText = tenantId.value from tenant] at found
    exact survives_of_tenant (requiredField_eq_some.mp found)
  · intro survives
    obtain ⟨tenant, key⟩ := queryValues_of_survives survives (survives_of_hex hex)
    obtain rfl := TenantId.parse_eq_ok parsed
    obtain ⟨_, rfl⟩ := CacheKey.fromHex_eq_ok.mp hex
    refine ⟨⟨tenantText, keyText⟩, ?_, parsed, hex⟩
    rw [ReplicaListQuery.fromQuery, requiredField_eq_some.mpr tenant, requiredField_eq_some.mpr key]
    rfl

theorem read_iff {keyText : String} (hex : CacheKey.fromHex keyText = .ok cacheKey) (handle : ChunkHandle) :
    ReadChunkQuery.fromQuery (pathQuery (RemoteStoreClient.readChunkPath tenantId cacheKey handle)) =
      some ⟨some tenantId.value, some cacheKey.value⟩ ↔ SurvivesQuery tenantId.value.toList := by
  rw [pathQuery_readChunk]
  constructor
  · intro read
    simp only [ReadChunkQuery.fromQuery, Option.bind_eq_bind, Option.bind_eq_some_iff, Option.pure_def,
      Option.some.injEq] at read
    obtain ⟨tenantText, found, keyText, _, same⟩ := read
    cases same
    exact survives_of_tenant (optionalField_eq_some.mp found)
  · intro survives
    obtain ⟨tenant, key⟩ := queryValues_of_survives survives (survives_of_hex hex)
    rw [ReadChunkQuery.fromQuery, optionalField_eq_some.mpr tenant, optionalField_eq_some.mpr key]
    rfl

end

/-! The JSON bodies. -/

theorem Value.mapM_asByte_same {items : List Value} {bytes : List UInt8}
    (h : Value.SameItems items (bytes.map fun b => .number (.posInt b.toNat))) : items.mapM Value.asByte = some bytes := by
  induction bytes generalizing items with
  | nil =>
    cases items with
    | nil => rfl
    | cons => cases h
  | cons b rest ih =>
    cases items with
    | nil => cases h
    | cons item items =>
      have first : item.asByte = some b := by
        rw [Value.Same.of_number h.1, Value.asByte, Value.asUnsigned, Option.bind_eq_bind, Option.bind_some,
          if_pos b.toNat_lt, UInt8.ofNat_toNat]
      rw [List.mapM_cons, first, ih h.2]
      rfl

section
variable {tenantId : TenantId} {cacheKey : CacheKey} {found : Value}

theorem PutStartRequest.fromValue_same {len replicaCount : Nat} (formed : found.wellFormed = true)
    (same : found.Same (RemoteMasterClient.putStartBody tenantId cacheKey len replicaCount)) :
    PutStartRequest.fromValue found = some ⟨tenantId.value, cacheKey.value, len, replicaCount⟩ := by
  obtain ⟨members, rfl, _⟩ := Value.Same.of_object same
  have names := Value.names_nodup formed
  have written : ["cache_key", "len", "replica_count", "tenant_id"].Nodup := by decide
  obtain ⟨tenant, hasTenant, sameTenant⟩ := same.lookup names written "tenant_id" rfl
  obtain ⟨key, hasKey, sameKey⟩ := same.lookup names written "cache_key" rfl
  obtain ⟨length, hasLength, sameLength⟩ := same.lookup names written "len" rfl
  obtain ⟨count, hasCount, sameCount⟩ := same.lookup names written "replica_count" rfl
  rw [sameTenant.of_string] at hasTenant
  rw [sameKey.of_string] at hasKey
  rw [sameLength.of_number] at hasLength
  rw [sameCount.of_number] at hasCount
  simp [PutStartRequest.fromValue, Value.get, hasTenant, hasKey, hasLength, hasCount, Value.asStr, Value.asUnsigned]

theorem PreallocatedWriteRequest.fromValue_same {handle : ChunkHandle} {bytes : List UInt8}
    (formed : found.wellFormed = true)
    (same : found.Same (RemoteStoreClient.writePreallocatedChunkBody tenantId cacheKey handle bytes)) :
    PreallocatedWriteRequest.fromValue found =
      some ⟨some tenantId.value, some cacheKey.value, handle.offset, handle.len, bytes⟩ := by
  obtain ⟨members, rfl, _⟩ := Value.Same.of_object same
  have names := Value.names_nodup formed
  have written : ["cache_key", "data", "len", "offset", "tenant_id"].Nodup := by decide
  obtain ⟨tenant, hasTenant, sameTenant⟩ := same.lookup names written "tenant_id" rfl
  obtain ⟨key, hasKey, sameKey⟩ := same.lookup names written "cache_key" rfl
  obtain ⟨offset, hasOffset, sameOffset⟩ := same.lookup names written "offset" rfl
  obtain ⟨length, hasLength, sameLength⟩ := same.lookup names written "len" rfl
  obtain ⟨data, hasData, sameData⟩ := same.lookup names written "data" rfl
  obtain ⟨items, rfl, sameItems⟩ := sameData.of_array
  rw [sameTenant.of_string] at hasTenant
  rw [sameKey.of_string] at hasKey
  rw [sameOffset.of_number] at hasOffset
  rw [sameLength.of_number] at hasLength
  have decoded := Value.mapM_asByte_same sameItems
  simp [PreallocatedWriteRequest.fromValue, Value.optionalStr, Value.get, hasTenant, hasKey, hasOffset, hasLength,
    hasData, Value.asUnsigned, Value.asBytes, decoded]

variable [JsonWriter] [JsonReader]

/-- The servers decode the object that the clients were given exactly if a query carries its tenant id as it is. -/
theorem identity_survives_iff {tenantText keyText : String} (parsed : TenantId.parse tenantText = .ok tenantId)
    (hex : CacheKey.fromHex keyText = .ok cacheKey) {len replicaCount : Nat} {handle : ChunkHandle}
    {bytes : List UInt8} (start : RoundTrips (RemoteMasterClient.putStartBody tenantId cacheKey len replicaCount))
    (write : RoundTrips (RemoteStoreClient.writePreallocatedChunkBody tenantId cacheKey handle bytes)) :
    IdentitySurvives tenantId cacheKey len replicaCount handle bytes ↔ SurvivesQuery tenantId.value.toList := by
  refine ⟨fun survives => (listed_iff parsed hex).mp survives.listed, fun survives => ?_⟩
  obtain ⟨found, read, formed, same⟩ := start
  obtain ⟨other, readOther, otherFormed, otherSame⟩ := write
  obtain rfl := TenantId.parse_eq_ok parsed
  obtain ⟨_, rfl⟩ := CacheKey.fromHex_eq_ok.mp hex
  exact {
    listed := (listed_iff parsed hex).mpr survives
    read := (read_iff hex handle).mpr survives
    started := ⟨found, _, read, PutStartRequest.fromValue_same formed same, parsed, hex⟩
    written := ⟨other, _, readOther, PreallocatedWriteRequest.fromValue_same otherFormed otherSame, rfl, rfl⟩ }

end

private def queriedKey : String := "cccccccccccccccccccccccccccccccccccccccccccccccccccccccccccccccc"

private def sampleStart (tenant : String) : Value := RemoteMasterClient.putStartBody ⟨tenant⟩ ⟨queriedKey⟩ 2 1

private def sampleWrite (tenant : String) : Value :=
  RemoteStoreClient.writePreallocatedChunkBody ⟨tenant⟩ ⟨queriedKey⟩ ⟨0, 2⟩ [7, 9]

private def startText (tenant : String) : List UInt8 :=
  utf8 ("\x7b\"cache_key\":\"" ++ queriedKey ++ "\",\"len\":2,\"replica_count\":1,\"tenant_id\":\"" ++ tenant ++
    "\"\x7d").toList

private def writeText (tenant : String) : List UInt8 :=
  utf8 ("\x7b\"cache_key\":\"" ++ queriedKey ++ "\",\"data\":[7,9],\"len\":2,\"offset\":0,\"tenant_id\":\"" ++ tenant ++
    "\"\x7d").toList

/-- The compact texts of the two bodies. -/
@[reducible] private def bodyWriter (tenant : String) : JsonWriter where
  toVec value := if (value.get "data").isSome then writeText tenant else startText tenant

@[reducible] private def bodyReader (tenant : String) : JsonReader where
  fromSlice bytes :=
    if bytes = startText tenant then .ok (sampleStart tenant)
    else if bytes = writeText tenant then .ok (sampleWrite tenant) else .error "expected value at line 1 column 1"
  mismatch expected _ := "invalid type for " ++ expected

private theorem writeText_ne : ∀ tenant ∈ ["team-a", "team+a"], writeText tenant ≠ startText tenant := by
  decide +kernel

private theorem roundTrips_bodies (tenant : String) (h : tenant ∈ ["team-a", "team+a"]) :
    let _ := bodyWriter tenant
    let _ := bodyReader tenant
    RoundTrips (sampleStart tenant) ∧ RoundTrips (sampleWrite tenant) := by
  let _ := bodyWriter tenant
  let _ := bodyReader tenant
  refine ⟨⟨sampleStart tenant, if_pos rfl, rfl, Value.Same.refl rfl⟩, ⟨sampleWrite tenant, ?_, rfl, Value.Same.refl rfl⟩⟩
  exact (if_neg (writeText_ne tenant h)).trans (if_pos rfl)

theorem team_survives :
    let _ := bodyWriter "team-a"
    let _ := bodyReader "team-a"
    IdentitySurvives ⟨"team-a"⟩ ⟨queriedKey⟩ 2 1 ⟨0, 2⟩ [7, 9] := by
  let _ := bodyWriter "team-a"
  let _ := bodyReader "team-a"
  obtain ⟨start, write⟩ := roundTrips_bodies "team-a" (by decide)
  have parsed : TenantId.parse "team-a" = .ok ⟨"team-a"⟩ := rfl
  have hex : CacheKey.fromHex queriedKey = .ok ⟨queriedKey⟩ := rfl
  exact (identity_survives_iff parsed hex start write).mpr (by decide)

/-- A plus sign is read as a space. -/
theorem plus_is_read_as_space :
    ¬ ∀ [JsonWriter] [JsonReader] (tenantText keyText : String) (tenantId : TenantId) (cacheKey : CacheKey)
      (len replicaCount : Nat) (handle : ChunkHandle) (bytes : List UInt8), TenantId.parse tenantText = .ok tenantId →
      CacheKey.fromHex keyText = .ok cacheKey →
      RoundTrips (RemoteMasterClient.putStartBody tenantId cacheKey len replicaCount) →
      RoundTrips (RemoteStoreClient.writePreallocatedChunkBody tenantId cacheKey handle bytes) →
      IdentitySurvives tenantId cacheKey len replicaCount handle bytes := by
  intro survives
  let _ := bodyWriter "team+a"
  let _ := bodyReader "team+a"
  obtain ⟨start, write⟩ := roundTrips_bodies "team+a" (by decide)
  have parsed : TenantId.parse "team+a" = .ok ⟨"team+a"⟩ := rfl
  have hex : CacheKey.fromHex queriedKey = .ok ⟨queriedKey⟩ := rfl
  have listed := (survives "team+a" queriedKey ⟨"team+a"⟩ ⟨queriedKey⟩ 2 1 ⟨0, 2⟩ [7, 9] parsed hex start write).listed
  exact absurd ((listed_iff parsed hex).mp listed) (by decide)

end Mooncache
