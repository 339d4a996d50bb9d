import Mooncache.Common.Digest
import Mooncache.Fingerprint.Canonical

/-! The cache key of a request: the digest of a canonical fingerprint document. -/
namespace Mooncache

structure FingerprintInput where
  tenantId : TenantId
  endpointVersion : String
  vendorId : String
  resolvedModelVersion : String
  adapterVersion : String
  cachePolicy : String
  body : Value

namespace FingerprintInput

def fields (input : FingerprintInput) : List (String × Value) := [
  ("tenant_id", .string input.tenantId.value),
  ("endpoint_version", .string input.endpointVersion),
  ("vendor_id", .string input.vendorId),
  ("resolved_model_version", .string input.resolvedModelVersion),
  ("adapter_version", .string input.adapterVersion),
  ("cache_policy", .string input.cachePolicy),
  ("body", input.body)]

def doc (input : FingerprintInput) : Value := .object input.fields

/-- The names of the document's fields, in the order they are written. -/
def fieldNames : List String := ["tenant_id", "endpoint_version", "vendor_id", "resolved_model_version",
  "adapter_version", "cache_policy", "body"]

theorem fields_nodup (input : FingerprintInput) : (input.fields.map Prod.fst).Nodup :=
  show fieldNames.Nodup by decide

theorem doc_wellFormed {input : FingerprintInput} (h : input.body.wellFormed = true) :
    input.doc.wellFormed = true := by
  rw [doc, Value.wellFormed, Bool.and_eq_true, decide_eq_true_eq]
  refine ⟨input.fields_nodup, ?_⟩
  simp only [fields, Value.wellFormedMembers, Value.wellFormed, h, Bool.and_self]

/-- No field of one document can be mistaken for a field or the body of another. -/
theorem doc_same_iff {a b : FingerprintInput} : a.doc.Same b.doc ↔
    a.tenantId = b.tenantId ∧ a.endpointVersion = b.endpointVersion ∧ a.vendorId = b.vendorId ∧
      a.resolvedModelVersion = b.resolvedModelVersion ∧ a.adapterVersion = b.adapterVersion ∧
      a.cachePolicy = b.cachePolicy ∧ a.body.Same b.body := by
  have names : a.fields.map Prod.fst = b.fields.map Prod.fst := rfl
  rw [doc, doc, Value.same_object_iff names b.fields_nodup]
  obtain ⟨⟨tenantA⟩, _⟩ := a
  obtain ⟨⟨tenantB⟩, _⟩ := b
  simp only [fields, List.forall₂_cons, List.forall₂_nil_left_iff, Value.Same, TenantId.mk.injEq, and_true]

end FingerprintInput

variable [Sha256] [JsonWriter]

def canonicalJsonBytes (value : Value) : List UInt8 := toVec value.canonicalize

def computeCacheKey (input : FingerprintInput) : CacheResult CacheKey :=
  CacheKey.fromHex (lowerHex (sha256 (canonicalJsonBytes input.doc)))

/-- The writer and the digest tell the canonical documents of two inputs apart. -/
structure TellsApart (a b : FingerprintInput) : Prop where
  writer : toVec a.doc.canonicalize = toVec b.doc.canonicalize → a.doc.canonicalize = b.doc.canonicalize
  digest : sha256 (canonicalJsonBytes a.doc) = sha256 (canonicalJsonBytes b.doc) →
    canonicalJsonBytes a.doc = canonicalJsonBytes b.doc

theorem computeCacheKey_eq (input : FingerprintInput) :
    computeCacheKey input = .ok ⟨lowerHex (sha256 (canonicalJsonBytes input.doc))⟩ :=
  fromHex_lowerHex _

/-- A computed key is the text of a digest, which is redacted without a panic. -/
theorem redacted_of_computeCacheKey {input : FingerprintInput} {cacheKey : CacheKey}
    (computed : computeCacheKey input = .ok cacheKey) : ∃ text, cacheKey.redacted = some text := by
  rw [computeCacheKey_eq, Except.ok.injEq] at computed
  subst computed
  exact ⟨_, CacheKey.redacted_of_hex (fromHex_lowerHex _)⟩

theorem computeCacheKey_eq_iff {a b : FingerprintInput} (apart : TellsApart a b)
    (ha : a.body.wellFormed = true) (hb : b.body.wellFormed = true) :
    computeCacheKey a = computeCacheKey b ↔ a.doc.Same b.doc := by
  rw [← Value.canonicalize_eq_iff _ _ (FingerprintInput.doc_wellFormed ha)
    (FingerprintInput.doc_wellFormed hb), computeCacheKey_eq, computeCacheKey_eq]
  constructor
  · intro h
    simp only [Except.ok.injEq, CacheKey.mk.injEq] at h
    exact apart.writer (apart.digest (lowerHex_injective h))
  · intro h
    rw [canonicalJsonBytes, canonicalJsonBytes, h]

end Mooncache
