import Mooncache.Fingerprint.CacheKey
import Mooncache.Protocol.Headers

/-! Which requests share a cache key: those that match in everything the gateway
fingerprints, and no others. -/
namespace Mooncache

def endpointVersion : String := "responses-v1"

def fingerprintBodyWithoutStream : Value → Value
  | .object members =>
    if members.any (·.1 = "stream") then .object (members.filter (·.1 ≠ "stream")) else .object members
  | body => body

def fingerprintPolicy (cacheControl : CacheControl) : String :=
  if cacheControl = .forceReplay then "force-replay" else "default"

/-- What the gateway knows of a request when it computes the cache key. -/
structure FingerprintedRequest where
  tenantId : TenantId
  vendorId : String
  resolvedModel : String
  adapterVersion : String
  cacheControl : CacheControl
  body : Document

def FingerprintedRequest.input (request : FingerprintedRequest) : FingerprintInput where
  tenantId := request.tenantId
  endpointVersion := endpointVersion
  vendorId := request.vendorId
  resolvedModelVersion := request.resolvedModel
  adapterVersion := request.adapterVersion
  cachePolicy := fingerprintPolicy request.cacheControl
  body := fingerprintBodyWithoutStream request.body

theorem wellFormedMembers_filter {members : List (String × Value)} (keep : String × Value → Bool)
    (h : Value.wellFormedMembers members = true) : Value.wellFormedMembers (members.filter keep) = true := by
  induction members with
  | nil => rfl
  | cons member rest ih =>
    simp only [Value.wellFormedMembers, Bool.and_eq_true] at h
    rw [List.filter_cons]
    split
    · simp only [Value.wellFormedMembers, h.1, ih h.2, Bool.and_self]
    · exact ih h.2

theorem fingerprintBodyWithoutStream_wellFormed (body : Document) :
    (fingerprintBodyWithoutStream body).wellFormed = true := by
  obtain ⟨body, h⟩ := body
  cases body with
  | object members =>
    simp only [fingerprintBodyWithoutStream]
    split
    · simp only [Value.wellFormed, Bool.and_eq_true, decide_eq_true_eq] at h ⊢
      exact ⟨h.1.sublist (List.filter_sublist.map _), wellFormedMembers_filter _ h.2⟩
    · exact h
  | _ => exact h

theorem fingerprintPolicy_eq_iff (a b : CacheControl) :
    fingerprintPolicy a = fingerprintPolicy b ↔ (a = .forceReplay ↔ b = .forceReplay) := by
  cases a <;> cases b <;> decide

section
variable [Sha256] [JsonWriter]

/-- Where the writer and the digest tell two documents apart, the keys agree exactly
on requests that match. -/
theorem cacheKey_eq_iff {a b : FingerprintedRequest} (apart : TellsApart a.input b.input) :
    computeCacheKey a.input = computeCacheKey b.input ↔
      a.tenantId = b.tenantId ∧ a.vendorId = b.vendorId ∧ a.resolvedModel = b.resolvedModel ∧
        a.adapterVersion = b.adapterVersion ∧
        (a.cacheControl = .forceReplay ↔ b.cacheControl = .forceReplay) ∧
        (fingerprintBodyWithoutStream a.body).Same (fingerprintBodyWithoutStream b.body) := by
  rw [computeCacheKey_eq_iff apart (fingerprintBodyWithoutStream_wellFormed a.body)
    (fingerprintBodyWithoutStream_wellFormed b.body), FingerprintInput.doc_same_iff]
  simp only [FingerprintedRequest.input, true_and, fingerprintPolicy_eq_iff]

end

private def streamedRequest (tenantId : String) : FingerprintedRequest where
  tenantId := ⟨tenantId⟩
  vendorId := "openai"
  resolvedModel := "gpt-x"
  adapterVersion := "openai-responses-v1"
  cacheControl := .default
  body := ⟨.object [("model", .string "gpt-x"), ("stream", .bool true), ("input", .string "hi")], by decide⟩

private def ascii (text : String) : List UInt8 := text.toList.map fun c => c.toNat.toUInt8

private def canonicalText (tenantId : String) : List UInt8 :=
  ascii ("\x7b\"adapter_version\":\"openai-responses-v1\",\"body\":\x7b\"input\":\"hi\",\"model\":\"gpt-x\"\x7d," ++
    "\"cache_policy\":\"default\",\"endpoint_version\":\"responses-v1\"," ++
    "\"resolved_model_version\":\"gpt-x\",\"tenant_id\":\"") ++
    (ascii tenantId ++ ascii "\",\"vendor_id\":\"openai\"\x7d")

/-- The compact text of the two documents below. -/
@[reducible] private def textOfDoc : JsonWriter where
  toVec doc := match (doc.get "tenant_id").bind Value.asStr with
    | some tenantId => canonicalText tenantId
    | none => []

/-- The digests of the two documents below. -/
@[reducible] private def digestOfDoc : Sha256 where
  sha256 bytes := if bytes = canonicalText "tenant-a" then #v[
      21, 31, 68, 246, 248, 18, 193, 155, 110, 110, 132, 160, 255, 82, 248, 53, 88, 80, 57, 147,
      31, 177, 47, 176, 61, 93, 239, 125, 214, 95, 2, 140]
    else #v[
      35, 203, 113, 86, 47, 105, 85, 29, 238, 73, 60, 177, 181, 168, 137, 32, 118, 40, 227, 33, 67,
      77, 3, 176, 229, 58, 125, 134, 227, 202, 170, 85]

/-- The same request of two tenants has two keys. -/
theorem cacheKey_ne_across_tenants :
    @computeCacheKey digestOfDoc textOfDoc (streamedRequest "tenant-a").input ≠
      @computeCacheKey digestOfDoc textOfDoc (streamedRequest "tenant-b").input := by
  let _ := textOfDoc
  let _ := digestOfDoc
  have texts : canonicalText "tenant-a" ≠ canonicalText "tenant-b" := fun h =>
    absurd (List.append_cancel_right (List.append_cancel_left h)) (by decide)
  have textA : canonicalJsonBytes (streamedRequest "tenant-a").input.doc = canonicalText "tenant-a" := rfl
  have textB : canonicalJsonBytes (streamedRequest "tenant-b").input.doc = canonicalText "tenant-b" := rfl
  have apart : TellsApart (streamedRequest "tenant-a").input (streamedRequest "tenant-b").input :=
    ⟨fun h => absurd (textA.symm.trans (h.trans textB)) texts, fun h => by
      rw [textA, textB] at h
      change (if _ then _ else _) = (if _ then _ else _) at h
      rw [if_pos rfl, if_neg texts.symm] at h
      revert h
      decide⟩
  intro h
  have tenants := ((cacheKey_eq_iff apart).mp h).1
  simp only [streamedRequest, TenantId.mk.injEq] at tenants
  revert tenants
  decide

end Mooncache
