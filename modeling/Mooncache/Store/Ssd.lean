import Mooncache.Common.Digest
import Mooncache.Foundation.Table

/-! The SSD tier: one encrypted file per object, under the directory of its tenant. -/
namespace Mooncache

structure PathBuf where
  absolute : Bool
  components : List String
  deriving DecidableEq, Repr

namespace PathBuf

/-- The components of a path's text: none is empty or a single dot. -/
def componentsOf (text : String) : List String :=
  ((text.toList.splitOn '/').map String.ofList).filter fun component => component ≠ "" ∧ component ≠ "."

/-- Absolute text replaces the path. -/
def join (path : PathBuf) (text : String) : PathBuf :=
  if text.toList.head? = some '/' then ⟨true, componentsOf text⟩
  else { path with components := path.components ++ componentsOf text }

def parent (path : PathBuf) : Option PathBuf :=
  if path.components = [] then none else some { path with components := path.components.dropLast }

end PathBuf

inductive SsdError where
  | invalidPathSegment (kind value : String)
  | notFound (tenantId cacheKey : String)
  | corruptObject (reason : String)
  | encryption
  | decryption
  | io (op : String) (path : PathBuf) (source : String)
  deriving DecidableEq, Repr

abbrev SsdResult := Except SsdError

/-- The regular files by path. Directories are not kept. -/
abbrev Files := Table PathBuf (List UInt8)

/-- Authenticated encryption under a key, a nonce and associated data, by a third-party crate. -/
class ChaCha20Poly1305 where
  encrypt (key nonce aad msg : List UInt8) : Option (List UInt8)
  decrypt (key nonce aad ciphertext : List UInt8) : Option (List UInt8)

export ChaCha20Poly1305 (encrypt decrypt)

def fileMagic : List UInt8 := [77, 67, 83, 83, 68, 49, 0]

def nonceLen : Nat := 12

def objectExtension : String := "mcobj"

/-- The source checks UTF-8 bytes; the bytes of a character outside ASCII are all outside the
accepted ranges. -/
def isSegmentChar (c : Char) : Bool := c.isAlphanum || c == '-' || c == '_' || c == '.'

def validatePathSegment (kind value : String) : SsdResult String :=
  if value ≠ "" ∧ value ≠ "." ∧ value ≠ ".." ∧ value.toList.all isSegmentChar then .ok value
  else .error (.invalidPathSegment kind value)

def aad (tenantId cacheKey : String) : List UInt8 := (tenantId ++ "\x00" ++ cacheKey).toUTF8.data.toList

/-- Lowercase hexadecimal digits. -/
def hexLower (bytes : List UInt8) : String := String.ofList (bytes.flatMap hexByte)

/-- The calls to the file system that write an object. -/
inductive PersistStage where
  | createDir
  | create
  | write
  | flush
  | sync
  | rename
  deriving DecidableEq, Repr

/-- What one call of `persist_object` meets: its random bytes, the file system call that fails
with its error, and what stays of a temporary file that cannot be removed. -/
structure PersistEnv where
  nonce : Vector UInt8 12
  suffix : Vector UInt8 8
  fault : Option (PersistStage × String)
  leftover : Option (List UInt8)

structure SsdStore where
  root : PathBuf
  cipher : List UInt8
  deriving DecidableEq, Repr

namespace SsdStore

/-- The error with which the root cannot be created, if it cannot, comes from outside. -/
def newWithKey (root : PathBuf) (key : List UInt8) (fault : Option String) : SsdResult SsdStore :=
  match fault with
  | some source => .error (.io "creating SSD root" root source)
  | none => if key.length = 32 then .ok ⟨root, key⟩ else .error .encryption

def objectPath (store : SsdStore) (tenantId cacheKey : String) : SsdResult PathBuf := do
  let tenantId ← validatePathSegment "tenant_id" tenantId
  let cacheKey ← validatePathSegment "cache_key" cacheKey
  return (store.root.join tenantId).join (cacheKey ++ "." ++ objectExtension)

def tempPath (tenantDir : PathBuf) (cacheKey : String) (suffix : Vector UInt8 8) : PathBuf :=
  tenantDir.join ("." ++ cacheKey ++ "." ++ hexLower suffix.toList ++ ".tmp")

/-- The first of the calls on the temporary file that fails, the last of which renames it. -/
def tempError (env : PersistEnv) (present : Bool) (tmpPath objectPath : PathBuf) : Option SsdError :=
  if present then some (.io "creating SSD temp object" tmpPath "File exists (os error 17)")
  else match env.fault with
    | some (.create, source) => some (.io "creating SSD temp object" tmpPath source)
    | some (.write, source) => some (.io "writing SSD temp object" tmpPath source)
    | some (.flush, source) => some (.io "flushing SSD temp object" tmpPath source)
    | some (.sync, source) => some (.io "syncing SSD temp object" tmpPath source)
    | some (.rename, source) => some (.io "renaming SSD object into place" objectPath source)
    | some (.createDir, _) | none => none

/-- After a failure the temporary file is removed, where that succeeds. -/
def dropTemp (files : Files) (env : PersistEnv) (tmpPath : PathBuf) : Files :=
  match env.leftover with
  | some content => files.insert tmpPath content
  | none => files.erase tmpPath

variable [ChaCha20Poly1305]

def persistObject (store : SsdStore) (files : Files) (env : PersistEnv) (tenantId cacheKey : String)
    (bytes : List UInt8) : SsdResult Unit × Files :=
  match store.objectPath tenantId cacheKey with
  | .error err => (.error err, files)
  | .ok objectPath =>
    match objectPath.parent with
    | none => (.error (.corruptObject "object path has no parent directory"), files)
    | some tenantDir =>
      match env.fault with
      | some (.createDir, source) => (.error (.io "creating tenant SSD directory" tenantDir source), files)
      | _ =>
        match encrypt store.cipher env.nonce.toList (aad tenantId cacheKey) bytes with
        | none => (.error .encryption, files)
        | some ciphertext =>
          let fileBytes := fileMagic ++ env.nonce.toList ++ ciphertext
          let tmpPath := tempPath tenantDir cacheKey env.suffix
          match tempError env (files.lookup tmpPath).isSome tmpPath objectPath with
          | some err => (.error err, dropTemp files env tmpPath)
          | none => (.ok (), files.insert objectPath fileBytes)

/-- The error with which the file cannot be read, if it cannot, comes from outside. -/
def readObject (store : SsdStore) (files : Files) (fault : Option String) (tenantId cacheKey : String) :
    SsdResult (List UInt8) :=
  match store.objectPath tenantId cacheKey with
  | .error err => .error err
  | .ok objectPath =>
    match fault with
    | some source => .error (.io "reading SSD object" objectPath source)
    | none =>
      match files.lookup objectPath with
      | none => .error (.notFound tenantId cacheKey)
      | some fileBytes =>
        if fileMagic.isPrefixOf fileBytes then
          let encrypted := fileBytes.drop fileMagic.length
          if encrypted.length < nonceLen then .error (.corruptObject "missing SSD object nonce")
          else
            match decrypt store.cipher (encrypted.take nonceLen) (aad tenantId cacheKey) (encrypted.drop nonceLen) with
            | none => .error .decryption
            | some bytes => .ok bytes
        else .error (.corruptObject "missing SSD file magic")

def promoteToDram (store : SsdStore) (files : Files) (fault : Option String) (tenantId cacheKey : String) :
    SsdResult (List UInt8) :=
  store.readObject files fault tenantId cacheKey

omit [ChaCha20Poly1305] in
theorem validatePathSegment_eq_ok {kind value segment : String} (h : validatePathSegment kind value = .ok segment) :
    segment = value ∧ value ≠ "" ∧ value ≠ "." ∧ ∀ c ∈ value.toList, isSegmentChar c = true := by
  unfold validatePathSegment at h
  split at h
  · rename_i valid
    cases h
    exact ⟨rfl, valid.1, valid.2.1, List.all_eq_true.mp valid.2.2.2⟩
  · cases h

omit [ChaCha20Poly1305] in
/-- Text without a separator is one component. -/
theorem join_of_component (path : PathBuf) {text : String} (present : text ≠ "") (dot : text ≠ ".")
    (separator : '/' ∉ text.toList) : path.join text = ⟨path.absolute, path.components ++ [text]⟩ := by
  have relative : text.toList.head? ≠ some '/' := fun head => separator (List.mem_of_head? head)
  rw [PathBuf.join, if_neg relative, PathBuf.componentsOf, List.splitOn_eq_singleton separator]
  simp [present, dot]

omit [ChaCha20Poly1305] in
private theorem not_separator {value : String} (h : ∀ c ∈ value.toList, isSegmentChar c = true) :
    '/' ∉ value.toList := fun member => absurd (h _ member) (by decide)

omit [ChaCha20Poly1305] in
/-- The path of an object is two components below the root, which name the object. -/
theorem objectPath_eq_ok {store : SsdStore} {tenantId cacheKey : String} {path : PathBuf}
    (h : store.objectPath tenantId cacheKey = .ok path) :
    path = ⟨store.root.absolute, store.root.components ++ [tenantId, cacheKey ++ "." ++ objectExtension]⟩ ∧
      '/' ∉ cacheKey.toList := by
  unfold objectPath at h
  cases tenant : validatePathSegment "tenant_id" tenantId with
  | error err => simp [tenant, bind, Except.bind] at h
  | ok tenantSegment =>
    cases key : validatePathSegment "cache_key" cacheKey with
    | error err => simp [tenant, key, bind, Except.bind] at h
    | ok keySegment =>
      obtain ⟨rfl, present, dot, chars⟩ := validatePathSegment_eq_ok tenant
      obtain ⟨rfl, keyPresent, _, keyChars⟩ := validatePathSegment_eq_ok key
      simp only [tenant, key, bind, Except.bind, pure, Except.pure, Except.ok.injEq] at h
      have clean := not_separator keyChars
      refine ⟨?_, clean⟩
      rw [← h, join_of_component _ present dot (not_separator chars), join_of_component]
      · simp
      · simp [objectExtension]
      · intro same
        have length := congrArg (fun text => text.toList.length) same
        simp [objectExtension] at length
      · simp [objectExtension, clean]

omit [ChaCha20Poly1305] in
theorem objectPath_injective {store : SsdStore} {tenantId cacheKey tenant key : String} {path : PathBuf}
    (h : store.objectPath tenantId cacheKey = .ok path) (other : store.objectPath tenant key = .ok path) :
    tenantId = tenant ∧ cacheKey = key := by
  obtain ⟨rfl, _⟩ := objectPath_eq_ok h
  obtain ⟨same, _⟩ := objectPath_eq_ok other
  simpa [objectExtension] using same

omit [ChaCha20Poly1305] in
private theorem hexLower_not_separator (bytes : List UInt8) : '/' ∉ (hexLower bytes).toList := by
  intro member
  rw [hexLower, String.toList_ofList, List.mem_flatMap] at member
  obtain ⟨byte, _, digit⟩ := member
  have bound := byte.toNat_lt
  have hex : isLowerHex '/' = true := by
    simp only [hexByte, List.mem_cons, List.not_mem_nil, or_false] at digit
    rcases digit with same | same
    · exact same ▸ hexDigit_isLowerHex _ (by omega)
    · exact same ▸ hexDigit_isLowerHex _ (by omega)
  exact absurd hex (by decide)

omit [ChaCha20Poly1305] in
/-- No temporary file stands where an object does. -/
theorem tempPath_ne_objectPath {store : SsdStore} {tenantId cacheKey key : String} {path : PathBuf}
    (h : store.objectPath tenantId cacheKey = .ok path) (tenantDir : PathBuf) (clean : '/' ∉ key.toList)
    (suffix : Vector UInt8 8) : tempPath tenantDir key suffix ≠ path := by
  obtain ⟨rfl, _⟩ := objectPath_eq_ok h
  rw [tempPath, join_of_component]
  · intro same
    have names := congrArg (fun path => path.components.getLast?.map fun name => name.toList.getLast?) same
    simp [objectExtension, List.getLast?_cons, List.getLast?_append] at names
  · simp
  · intro same
    have length := congrArg (fun text => text.toList.length) same
    simp at length
  · simp [clean, hexLower_not_separator]

omit [ChaCha20Poly1305] in
theorem parent_objectPath {store : SsdStore} {tenantId cacheKey : String} {path : PathBuf}
    (h : store.objectPath tenantId cacheKey = .ok path) : path.parent = some (store.root.join tenantId) := by
  obtain ⟨rfl, _⟩ := objectPath_eq_ok h
  unfold objectPath at h
  cases tenant : validatePathSegment "tenant_id" tenantId with
  | error err => simp [tenant, bind, Except.bind] at h
  | ok tenantSegment =>
    obtain ⟨rfl, present, dot, chars⟩ := validatePathSegment_eq_ok tenant
    rw [join_of_component _ present dot (not_separator chars), PathBuf.parent, if_neg (by simp)]
    simp

/-- A write of an object leaves the files of the objects as they are, or puts its own file there. -/
theorem persistObject_cases (store : SsdStore) (files : Files) (env : PersistEnv) (tenantId cacheKey : String)
    (bytes : List UInt8) :
    (∃ err left, store.persistObject files env tenantId cacheKey bytes = (.error err, left) ∧
      ∀ tenant key path, store.objectPath tenant key = .ok path → left.lookup path = files.lookup path) ∨
    (∃ path ciphertext, store.objectPath tenantId cacheKey = .ok path ∧
      encrypt store.cipher env.nonce.toList (aad tenantId cacheKey) bytes = some ciphertext ∧
      store.persistObject files env tenantId cacheKey bytes =
        (.ok (), files.insert path (fileMagic ++ env.nonce.toList ++ ciphertext))) := by
  unfold persistObject
  cases named : store.objectPath tenantId cacheKey with
  | error err => exact .inl ⟨err, files, rfl, fun _ _ _ _ => rfl⟩
  | ok objectPath =>
    simp only
    cases parent : objectPath.parent with
    | none => exact .inl ⟨_, files, rfl, fun _ _ _ _ => rfl⟩
    | some tenantDir =>
      simp only
      split
      · exact .inl ⟨_, files, rfl, fun _ _ _ _ => rfl⟩
      · cases cipher : encrypt store.cipher env.nonce.toList (aad tenantId cacheKey) bytes with
        | none => exact .inl ⟨_, files, rfl, fun _ _ _ _ => rfl⟩
        | some ciphertext =>
          simp only
          split
          · refine .inl ⟨_, _, rfl, fun tenant key path other => ?_⟩
            have away := (tempPath_ne_objectPath other tenantDir (objectPath_eq_ok named).2 env.suffix).symm
            unfold dropTemp
            split
            · exact Finmap.lookup_insert_of_ne _ away
            · exact Finmap.lookup_erase_ne away
          · exact .inr ⟨objectPath, ciphertext, rfl, rfl, rfl⟩

/-- The names are path segments, the cipher takes the bytes, and the temporary file is new and
every call on it succeeds. -/
structure Persists (store : SsdStore) (files : Files) (env : PersistEnv) (tenantId cacheKey : String)
    (bytes : List UInt8) : Prop where
  named : ∃ path, store.objectPath tenantId cacheKey = .ok path
  encrypts : ∃ ciphertext, encrypt store.cipher env.nonce.toList (aad tenantId cacheKey) bytes = some ciphertext
  healthy : env.fault = none
  fresh : files.lookup (tempPath (store.root.join tenantId) cacheKey env.suffix) = none

theorem persistObject_ok_iff {store : SsdStore} {files : Files} {env : PersistEnv} {tenantId cacheKey : String}
    {bytes : List UInt8} : (store.persistObject files env tenantId cacheKey bytes).1 = .ok () ↔
      store.Persists files env tenantId cacheKey bytes := by
  unfold persistObject
  cases named : store.objectPath tenantId cacheKey with
  | error err => exact ⟨nofun, fun h => by simpa [named] using h.named⟩
  | ok objectPath =>
    simp only [parent_objectPath named]
    cases fault : env.fault with
    | some failed =>
      refine ⟨fun h => ?_, fun h => by simpa [fault] using h.healthy⟩
      obtain ⟨stage, source⟩ := failed
      by_cases present : (files.lookup (tempPath (store.root.join tenantId) cacheKey env.suffix)).isSome <;>
        cases cipher : encrypt store.cipher env.nonce.toList (aad tenantId cacheKey) bytes <;>
        cases stage <;> simp [cipher, tempError, fault, present] at h
    | none =>
      cases cipher : encrypt store.cipher env.nonce.toList (aad tenantId cacheKey) bytes with
      | none => exact ⟨nofun, fun h => by simpa [cipher] using h.encrypts⟩
      | some ciphertext =>
        cases present : files.lookup (tempPath (store.root.join tenantId) cacheKey env.suffix) with
        | some content =>
          refine ⟨fun h => ?_, fun h => by simpa [present] using h.fresh⟩
          simp [tempError] at h
        | none =>
          refine ⟨fun _ => ⟨⟨_, named⟩, ⟨_, cipher⟩, fault, present⟩, fun _ => ?_⟩
          simp [tempError, fault]

/-- The cipher decrypts what it encrypted. -/
def Decrypts : Prop := ∀ key nonce aad msg ciphertext : List UInt8,
  encrypt key nonce aad msg = some ciphertext → decrypt key nonce aad ciphertext = some msg

private theorem readObject_congr {store : SsdStore} {files left : Files} {tenantId cacheKey : String}
    (same : ∀ path, store.objectPath tenantId cacheKey = .ok path → left.lookup path = files.lookup path)
    (fault : Option String) :
    store.readObject left fault tenantId cacheKey = store.readObject files fault tenantId cacheKey := by
  unfold readObject
  cases named : store.objectPath tenantId cacheKey with
  | error err => rfl
  | ok path => simp only [same path named]

theorem readObject_eq_ok {store : SsdStore} {files : Files} {fault : Option String} {tenantId cacheKey : String}
    {bytes : List UInt8} (h : store.readObject files fault tenantId cacheKey = .ok bytes) :
    store.readObject files none tenantId cacheKey = .ok bytes := by
  cases fault with
  | none => exact h
  | some source =>
    unfold readObject at h
    cases named : store.objectPath tenantId cacheKey <;> simp [named] at h

/-- A write that fails changes no object. -/
theorem readObject_of_failed {store : SsdStore} {files left : Files} {env : PersistEnv} {tenantId cacheKey : String}
    {bytes : List UInt8} {err : SsdError}
    (h : store.persistObject files env tenantId cacheKey bytes = (.error err, left)) (fault : Option String)
    (tenant key : String) : store.readObject left fault tenant key = store.readObject files fault tenant key := by
  rcases persistObject_cases store files env tenantId cacheKey bytes with ⟨_, _, he, kept⟩ | ⟨_, _, _, _, he⟩
  · rw [he] at h
    cases h
    exact readObject_congr (kept tenant key) fault
  · rw [he] at h
    cases h

/-- A write changes no other object. -/
theorem readObject_persist_of_ne (store : SsdStore) (files : Files) (env : PersistEnv) {tenantId cacheKey : String}
    (bytes : List UInt8) (fault : Option String) {tenant key : String} (other : (tenant, key) ≠ (tenantId, cacheKey)) :
    store.readObject (store.persistObject files env tenantId cacheKey bytes).2 fault tenant key =
      store.readObject files fault tenant key := by
  rcases persistObject_cases store files env tenantId cacheKey bytes with ⟨_, _, he, kept⟩ | ⟨path, _, named, _, he⟩
  · rw [he]
    exact readObject_congr (kept tenant key) fault
  · rw [he]
    refine readObject_congr (fun otherPath otherNamed => Finmap.lookup_insert_of_ne _ ?_) fault
    rintro rfl
    obtain ⟨rfl, rfl⟩ := objectPath_injective otherNamed named
    exact other rfl

/-- What was written is read back. -/
theorem readObject_persist {store : SsdStore} {files left : Files} {env : PersistEnv} {tenantId cacheKey : String}
    {bytes : List UInt8} (decrypts : Decrypts)
    (h : store.persistObject files env tenantId cacheKey bytes = (.ok (), left)) :
    store.readObject left none tenantId cacheKey = .ok bytes := by
  rcases persistObject_cases store files env tenantId cacheKey bytes with
    ⟨_, _, he, _⟩ | ⟨path, ciphertext, named, cipher, he⟩
  · rw [he] at h
    cases h
  · rw [he] at h
    cases h
    have nonce : env.nonce.toList.length = nonceLen := env.nonce.length_toList
    have framed : (fileMagic ++ env.nonce.toList ++ ciphertext).drop fileMagic.length =
        env.nonce.toList ++ ciphertext := by
      rw [List.append_assoc, List.drop_left]
    have magic : fileMagic.isPrefixOf (fileMagic ++ env.nonce.toList ++ ciphertext) = true := by
      rw [List.isPrefixOf_iff_prefix, List.append_assoc]
      exact List.prefix_append _ _
    have long : ¬ (env.nonce.toList ++ ciphertext).length < nonceLen := by
      rw [List.length_append, nonce]
      omega
    simp only [readObject, named, Finmap.lookup_insert, magic, ↓reduceIte, framed, long,
      List.take_left' nonce, List.drop_left' nonce, decrypts _ _ _ _ _ cipher]

end SsdStore

/-- One use of the cipher. -/
structure SealedMessage where
  nonce : List UInt8
  aad : List UInt8
  msg : List UInt8
  ciphertext : List UInt8

/-- The key of the node's own tests. -/
def sampleKey : List UInt8 := [109, 111, 111, 110, 99, 97, 99, 104, 101, 45, 115, 116, 111, 114, 101, 45, 110, 111, 100,
  101, 45, 116, 101, 115, 116, 45, 107, 101, 121, 33, 33, 33]

def sampleSsd : SsdStore := ⟨⟨true, ["ssd"]⟩, sampleKey⟩

/-- ChaCha20-Poly1305 of the objects in the runs on fixed bytes, under `sampleKey`. -/
def sampleMessages : List SealedMessage := [
  ⟨List.replicate 12 0, aad "tenant-a" "key", [1, 2],
    [213, 86, 53, 84, 134, 57, 218, 234, 52, 101, 138, 207, 134, 117, 56, 43, 148, 239]⟩,
  ⟨List.replicate 12 1, aad "tenant-a" "key", [3, 4],
    [11, 20, 224, 68, 76, 179, 34, 128, 187, 51, 168, 114, 235, 241, 190, 191, 221, 152]⟩,
  ⟨List.replicate 12 1, aad "tenant-b" "key", [3, 4],
    [11, 20, 131, 154, 171, 36, 209, 153, 211, 214, 1, 74, 194, 8, 133, 160, 69, 90]⟩]

@[reducible] def sampleCipher : ChaCha20Poly1305 where
  encrypt key nonce aad msg := (sampleMessages.find? fun known =>
    key = sampleKey ∧ known.nonce = nonce ∧ known.aad = aad ∧ known.msg = msg).map (·.ciphertext)
  decrypt key nonce aad ciphertext := (sampleMessages.find? fun known =>
    key = sampleKey ∧ known.nonce = nonce ∧ known.aad = aad ∧ known.ciphertext = ciphertext).map (·.msg)

theorem sampleCipher_decrypts : @SsdStore.Decrypts sampleCipher := by
  intro key nonce aad msg ciphertext enciphered
  obtain ⟨known, found, rfl⟩ := Option.map_eq_some_iff.mp enciphered
  have matched := List.find?_some found
  have member := List.mem_of_find?_eq_some found
  simp only [decide_eq_true_eq] at matched
  obtain ⟨rfl, rfl, rfl, rfl⟩ := matched
  simp only [sampleMessages, List.mem_cons, List.not_mem_nil, or_false] at member
  rcases member with rfl | rfl | rfl
  · rfl
  · rfl
  · rfl

/-- A cipher that is asked for one message only, under `sampleKey`. -/
@[reducible] def soleCipher (known : SealedMessage) : ChaCha20Poly1305 where
  encrypt key nonce aad msg :=
    if key = sampleKey ∧ nonce = known.nonce ∧ aad = known.aad ∧ msg = known.msg then some known.ciphertext else none
  decrypt key nonce aad ciphertext :=
    if key = sampleKey ∧ nonce = known.nonce ∧ aad = known.aad ∧ ciphertext = known.ciphertext then some known.msg
    else none

theorem soleCipher_decrypts (known : SealedMessage) : @SsdStore.Decrypts (soleCipher known) := by
  intro key nonce aad msg ciphertext enciphered
  by_cases same : key = sampleKey ∧ nonce = known.nonce ∧ aad = known.aad ∧ msg = known.msg
  · obtain ⟨rfl, rfl, rfl, rfl⟩ := same
    obtain rfl : known.ciphertext = ciphertext :=
      Option.some.inj ((show (if _ then _ else _) = _ from if_pos ⟨rfl, rfl, rfl, rfl⟩).symm.trans enciphered)
    exact if_pos ⟨rfl, rfl, rfl, rfl⟩
  · have refused : (none : Option (List UInt8)) = some ciphertext :=
      (show (if _ then _ else _) = _ from if_neg same).symm.trans enciphered
    cases refused

end Mooncache
