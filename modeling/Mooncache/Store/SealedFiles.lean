import Mooncache.Store.Ssd
import Mathlib.Data.List.Basic

/-! Which files of the SSD tier decode, and to what. -/
namespace Mooncache
namespace SsdStore

/-- One call of `persist_object`, with what it meets. -/
structure PersistCall where
  env : PersistEnv
  tenantId : String
  cacheKey : String
  bytes : List UInt8

/-- `split_at`, which panics past the end. -/
def splitAt? (bytes : List UInt8) (mid : Nat) : Option (List UInt8 × List UInt8) :=
  if mid ≤ bytes.length then some (bytes.take mid, bytes.drop mid) else none

/-- The nonce a slice converts to, which panics for any other length. -/
def nonceFrom? (bytes : List UInt8) : Option (List UInt8) := if bytes.length = nonceLen then some bytes else none

variable [ChaCha20Poly1305]

/-- The files after the calls, and the calls that succeeded. -/
def persistAll (store : SsdStore) (files : Files) : List PersistCall → Files × List PersistCall
  | [] => (files, [])
  | call :: rest =>
    match store.persistObject files call.env call.tenantId call.cacheKey call.bytes with
    | (.ok (), left) => ((persistAll store left rest).1, call :: (persistAll store left rest).2)
    | (.error _, left) => persistAll store left rest

/-- The end of `read_object`, from the bytes of the file on, with its panics. -/
def openFile? (store : SsdStore) (tenantId cacheKey : String) (fileBytes : List UInt8) :
    Option (SsdResult (List UInt8)) :=
  match fileMagic.isPrefixOf? fileBytes with
  | none => some (.error (.corruptObject "missing SSD file magic"))
  | some encrypted =>
    if encrypted.length < nonceLen then some (.error (.corruptObject "missing SSD object nonce"))
    else do
      let (nonce, ciphertext) ← splitAt? encrypted nonceLen
      let nonce ← nonceFrom? nonce
      match decrypt store.cipher nonce (aad tenantId cacheKey) ciphertext with
      | none => some (.error .decryption)
      | some bytes => some (.ok bytes)

/-- Under a key, a nonce and associated data the cipher decrypts the ciphertexts made under the
same three, to what they were made of, and no others. -/
def Authentic : Prop := ∀ key nonce aad msg ciphertext : List UInt8,
  decrypt key nonce aad ciphertext = some msg ↔ encrypt key nonce aad msg = some ciphertext

/-- The bytes are the file of the message, sealed for this object under some nonce. -/
def Seals (store : SsdStore) (tenantId cacheKey : String) (fileBytes msg : List UInt8) : Prop :=
  ∃ nonce ciphertext, fileBytes = fileMagic ++ nonce ++ ciphertext ∧ nonce.length = nonceLen ∧
    encrypt store.cipher nonce (aad tenantId cacheKey) msg = some ciphertext

theorem Authentic.decrypts (h : Authentic) : Decrypts := fun key nonce aad msg ciphertext =>
  (h key nonce aad msg ciphertext).mpr

omit [ChaCha20Poly1305] in
theorem objectPath_segments {store : SsdStore} {tenantId cacheKey : String} {path : PathBuf}
    (h : store.objectPath tenantId cacheKey = .ok path) :
    ∀ c ∈ tenantId.toList ++ cacheKey.toList, isSegmentChar c = true := by
  unfold objectPath at h
  cases tenant : validatePathSegment "tenant_id" tenantId with
  | error err => simp [tenant, bind, Except.bind] at h
  | ok tenantSegment =>
    cases key : validatePathSegment "cache_key" cacheKey with
    | error err => simp [tenant, key, bind, Except.bind] at h
    | ok keySegment =>
      have tenantChars := (validatePathSegment_eq_ok tenant).2.2.2
      have keyChars := (validatePathSegment_eq_ok key).2.2.2
      intro c member
      exact (List.mem_append.mp member).elim (tenantChars c) (keyChars c)

omit [ChaCha20Poly1305] in
/-- The associated data name the object: its segments do not hold the byte between the two. -/
theorem aad_injective {store : SsdStore} {tenantId cacheKey tenant key : String} {path : PathBuf}
    (named : store.objectPath tenantId cacheKey = .ok path) (same : aad tenantId cacheKey = aad tenant key) :
    tenantId = tenant ∧ cacheKey = key := by
  have text := String.toByteArray_inj.mp (ByteArray.ext (Array.toList_inj.mp same))
  have chars : tenantId.toList ++ '\x00' :: cacheKey.toList = tenant.toList ++ '\x00' :: key.toList := by
    simpa using congrArg String.toList text
  have clean : '\x00' ∉ tenantId.toList := fun member =>
    absurd (objectPath_segments named _ (List.mem_append_left _ member)) (by decide)
  have keyClean : '\x00' ∉ cacheKey.toList := fun member =>
    absurd (objectPath_segments named _ (List.mem_append_right _ member)) (by decide)
  obtain ⟨first, _, second⟩ := (List.append_cons_inj_of_notMem clean keyClean).mp chars
  exact ⟨String.toList_inj.mp first, String.toList_inj.mp second⟩

/-- Reading is opening the file that is there, and no slice is out of range. -/
theorem openFile?_eq_readObject {store : SsdStore} {tenantId cacheKey : String} {path : PathBuf}
    (named : store.objectPath tenantId cacheKey = .ok path) {files : Files} {fileBytes : List UInt8}
    (present : files.lookup path = some fileBytes) :
    store.openFile? tenantId cacheKey fileBytes = some (store.readObject files none tenantId cacheKey) := by
  simp only [readObject, named, present]
  cases magic : fileMagic.isPrefixOf? fileBytes with
  | none =>
    have foreign : fileMagic.isPrefixOf fileBytes = false := by
      rw [← List.isSome_isPrefixOf?_eq_isPrefixOf, magic, Option.isSome_none]
    simp [openFile?, magic, foreign]
  | some encrypted =>
    have marked : fileMagic.isPrefixOf fileBytes = true := by
      rw [← List.isSome_isPrefixOf?_eq_isPrefixOf, magic, Option.isSome_some]
    have rest : fileBytes.drop fileMagic.length = encrypted := by
      rw [← List.isPrefixOf?_eq_some_iff_append_eq.mp magic, List.drop_left]
    simp only [openFile?, magic, marked, rest, ↓reduceIte]
    by_cases short : encrypted.length < nonceLen
    · simp only [short, ↓reduceIte]
    · have long : nonceLen ≤ encrypted.length := Nat.le_of_not_lt short
      simp only [short, splitAt?, long, nonceFrom?, List.length_take, Nat.min_eq_left long, ↓reduceIte, bind,
        Option.bind]
      cases decrypt store.cipher (encrypted.take nonceLen) (aad tenantId cacheKey) (encrypted.drop nonceLen) <;> rfl

/-- A file decodes to a message exactly when it seals it. -/
theorem openFile?_eq_ok (authentic : Authentic) {store : SsdStore} {tenantId cacheKey : String}
    {fileBytes msg : List UInt8} :
    store.openFile? tenantId cacheKey fileBytes = some (.ok msg) ↔ store.Seals tenantId cacheKey fileBytes msg := by
  constructor
  · intro opened
    cases magic : fileMagic.isPrefixOf? fileBytes with
    | none => simp [openFile?, magic] at opened
    | some encrypted =>
      by_cases short : encrypted.length < nonceLen
      · simp [openFile?, magic, short] at opened
      · have long : nonceLen ≤ encrypted.length := Nat.le_of_not_lt short
        have length : (encrypted.take nonceLen).length = nonceLen := by
          rw [List.length_take, Nat.min_eq_left long]
        simp only [openFile?, magic, short, splitAt?, long, nonceFrom?, length, ↓reduceIte, bind, Option.bind] at opened
        cases decrypted : decrypt store.cipher (encrypted.take nonceLen) (aad tenantId cacheKey)
            (encrypted.drop nonceLen) with
        | none => simp [decrypted] at opened
        | some bytes =>
          simp only [decrypted, Option.some.injEq, Except.ok.injEq] at opened
          refine ⟨_, _, ?_, length, (authentic _ _ _ _ _).mp (opened ▸ decrypted)⟩
          rw [List.append_assoc, List.take_append_drop, List.isPrefixOf?_eq_some_iff_append_eq.mp magic]
  · rintro ⟨nonce, ciphertext, rfl, length, encrypted⟩
    have magic : fileMagic.isPrefixOf? (fileMagic ++ nonce ++ ciphertext) = some (nonce ++ ciphertext) := by
      rw [List.isPrefixOf?_eq_some_iff_append_eq, List.append_assoc]
    have long : ¬ nonceLen + ciphertext.length < nonceLen := by omega
    have fits : nonceLen ≤ nonceLen + ciphertext.length := Nat.le_add_right _ _
    simp only [openFile?, magic, List.length_append, length, long, splitAt?, fits, List.take_left' length,
      List.drop_left' length, nonceFrom?, ↓reduceIte, bind, Option.bind, (authentic _ _ _ _ _).mpr encrypted]

/-- The last successful call for the object, if there is one. -/
def lastPersist (calls : List PersistCall) (tenantId cacheKey : String) : Option PersistCall :=
  (calls.filter fun call => call.tenantId = tenantId ∧ call.cacheKey = cacheKey).getLast?

omit [ChaCha20Poly1305] in
theorem lastPersist_cons (call : PersistCall) (rest : List PersistCall) (tenantId cacheKey : String) :
    lastPersist (call :: rest) tenantId cacheKey = (lastPersist rest tenantId cacheKey).or
      (if call.tenantId = tenantId ∧ call.cacheKey = cacheKey then some call else none) := by
  unfold lastPersist
  by_cases this : call.tenantId = tenantId ∧ call.cacheKey = cacheKey
  · rw [List.filter_cons_of_pos (by simpa using this), List.getLast?_cons, if_pos this]
    cases (rest.filter fun call => call.tenantId = tenantId ∧ call.cacheKey = cacheKey).getLast? <;> rfl
  · rw [List.filter_cons_of_neg (by simpa using this), if_neg this, Option.or_none]

/-- After any calls an object reads as its last successful call wrote it. -/
theorem readObject_persistAll (decrypts : Decrypts) (store : SsdStore) (files : Files) (calls : List PersistCall)
    (tenantId cacheKey : String) : store.readObject (store.persistAll files calls).1 none tenantId cacheKey =
      match lastPersist (store.persistAll files calls).2 tenantId cacheKey with
      | some call => .ok call.bytes
      | none => store.readObject files none tenantId cacheKey := by
  induction calls generalizing files with
  | nil => rfl
  | cons call rest ih =>
    unfold persistAll
    cases written : store.persistObject files call.env call.tenantId call.cacheKey call.bytes with
    | mk result left =>
      cases result with
      | error err =>
        simp only [ih left, readObject_of_failed written none tenantId cacheKey]
      | ok done =>
        simp only [ih left, lastPersist_cons]
        cases lastPersist (store.persistAll left rest).2 tenantId cacheKey with
        | some later => rfl
        | none =>
          rw [Option.none_or]
          by_cases this : call.tenantId = tenantId ∧ call.cacheKey = cacheKey
          · obtain ⟨rfl, rfl⟩ := this
            simpa using readObject_persist decrypts written
          · have other : (tenantId, cacheKey) ≠ (call.tenantId, call.cacheKey) := fun same =>
              this ⟨(congrArg Prod.fst same).symm, (congrArg Prod.snd same).symm⟩
            have kept := readObject_persist_of_ne store files call.env call.bytes none other
            rw [written] at kept
            simpa [this] using kept

/-- No ciphertext is made under two associated data. -/
def BindsData : Prop := ∀ key nonce aad msg other otherMsg ciphertext : List UInt8,
  encrypt key nonce aad msg = some ciphertext → encrypt key nonce other otherMsg = some ciphertext → aad = other

/-- After any calls an object reads as its last successful call wrote it. Whatever bytes stand in
its file, they are cut within their length and read as what they seal for this object, or not at all. -/
theorem object_files_decode_exactly (authentic : Authentic) (store : SsdStore) (files : Files) :
    (∀ calls tenantId cacheKey, store.readObject (store.persistAll files calls).1 none tenantId cacheKey =
      match lastPersist (store.persistAll files calls).2 tenantId cacheKey with
      | some call => .ok call.bytes
      | none => store.readObject files none tenantId cacheKey) ∧
    ∀ tenantId cacheKey path fileBytes, store.objectPath tenantId cacheKey = .ok path →
      let found := store.readObject (files.insert path fileBytes) none tenantId cacheKey
      store.openFile? tenantId cacheKey fileBytes = some found ∧
      (∀ msg, found = .ok msg ↔ store.Seals tenantId cacheKey fileBytes msg) ∧
      ((¬ ∃ msg, store.Seals tenantId cacheKey fileBytes msg) → ∃ err, found = .error err) ∧
      (BindsData → ∀ tenant key msg, (tenant, key) ≠ (tenantId, cacheKey) → store.Seals tenant key fileBytes msg →
        ∃ err, found = .error err) := by
  refine ⟨readObject_persistAll authentic.decrypts store files, fun tenantId cacheKey path fileBytes named => ?_⟩
  intro found
  have opened : store.openFile? tenantId cacheKey fileBytes = some found :=
    openFile?_eq_readObject named (Finmap.lookup_insert _)
  have exactly : ∀ msg, found = .ok msg ↔ store.Seals tenantId cacheKey fileBytes msg := fun msg => by
    rw [← openFile?_eq_ok authentic, opened, Option.some.injEq]
  have refused : (¬ ∃ msg, store.Seals tenantId cacheKey fileBytes msg) → ∃ err, found = .error err := fun none => by
    cases answer : found with
    | error err => exact ⟨err, rfl⟩
    | ok msg => exact absurd ⟨msg, (exactly msg).mp answer⟩ none
  refine ⟨opened, exactly, refused, fun binds tenant key msg other sealed => refused ?_⟩
  rintro ⟨own, nonce, ciphertext, rfl, length, made⟩
  obtain ⟨nonce', ciphertext', same, length', made'⟩ := sealed
  rw [List.append_assoc, List.append_assoc] at same
  obtain ⟨rfl, rfl⟩ := List.append_inj (List.append_cancel_left same) (length.trans length'.symm)
  obtain ⟨rfl, rfl⟩ := aad_injective named (binds _ _ _ _ _ _ _ made made')
  exact other rfl

end SsdStore

theorem sampleCipher_authentic : @SsdStore.Authentic sampleCipher := by
  intro key nonce aad msg ciphertext
  refine ⟨fun deciphered => ?_, sampleCipher_decrypts key nonce aad msg ciphertext⟩
  obtain ⟨known, found, rfl⟩ := Option.map_eq_some_iff.mp deciphered
  have matched := List.find?_some found
  have member := List.mem_of_find?_eq_some found
  simp only [decide_eq_true_eq] at matched
  obtain ⟨rfl, rfl, rfl, rfl⟩ := matched
  simp only [sampleMessages, List.mem_cons, List.not_mem_nil, or_false] at member
  rcases member with rfl | rfl | rfl
  · rfl
  · rfl
  · rfl

/-- Two writes of one object, the second under another nonce. -/
def sampleRewrite : List SsdStore.PersistCall := [
  ⟨⟨.replicate 12 0, .replicate 8 0, none, none⟩, "tenant-a", "key", [1, 2]⟩,
  ⟨⟨.replicate 12 1, .replicate 8 0, none, none⟩, "tenant-a", "key", [3, 4]⟩]

theorem sampleRewrite_reads_back :
    (@SsdStore.readObject sampleCipher sampleSsd (@SsdStore.persistAll sampleCipher sampleSsd ∅ sampleRewrite).1 none
      "tenant-a" "key") = .ok [3, 4] := by
  let _ := sampleCipher
  rw [(SsdStore.object_files_decode_exactly sampleCipher_authentic sampleSsd ∅).1]
  rfl

end Mooncache
