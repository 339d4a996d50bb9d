import Mooncache.Foundation.Table
import Mooncache.Protocol.Headers
import Mooncache.Protocol.Responses

/-! The gateway's responses: status, headers, body and stream events. -/
namespace Mooncache

inductive CacheWriteStatus where
  | committed
  | skipped
  | failed
  deriving DecidableEq, Repr

def CacheWriteStatus.asHeaderValue : CacheWriteStatus → String
  | committed => "committed"
  | skipped => "skipped"
  | failed => "failed"

def cacheStatusHeader : CacheStatus → String
  | .hit => "hit"
  | .miss => "miss"
  | .bypass => "bypass"
  | .ineligible => "ineligible"
  | .cacheOnlyMiss => "cache-only-miss"
  | .degraded => "degraded"

structure GatewayResponse where
  statusCode : Nat
  headers : Table String String
  body : Value
  streamEvents : Option (List SseEvent)

namespace GatewayResponse

def withCacheHeaders (statusCode : Nat) (body : Value) (cacheStatus : CacheStatus)
    (cacheWrite cacheTier : String) : GatewayResponse where
  statusCode := statusCode
  headers := (((∅ : Table String String).insert "x-cache-status" (cacheStatusHeader cacheStatus)).insert
    "x-cache-write" cacheWrite).insert "x-cache-tier" cacheTier |>.insert "x-cache-coalesced" "none"
  body := body
  streamEvents := none

def withHeader (response : GatewayResponse) (name value : String) : GatewayResponse :=
  { response with headers := response.headers.insert name value }

/-- The key is a digest's, on which `redacted` does not panic. -/
def withCacheKey (response : GatewayResponse) (cacheKey : CacheKey) : GatewayResponse :=
  response.withHeader "x-cache-key" (cacheKey.redacted.getD "")

def withCacheCoalesced (response : GatewayResponse) (role : String) : GatewayResponse :=
  response.withHeader "x-cache-coalesced" role

def withCacheWrite (response : GatewayResponse) (cacheWrite : String) : GatewayResponse :=
  response.withHeader "x-cache-write" cacheWrite

def ok (body : Value) (cacheStatus : CacheStatus) (cacheWrite cacheTier : String)
    (cacheKey : Option CacheKey) : GatewayResponse :=
  let response := withCacheHeaders 200 body cacheStatus cacheWrite cacheTier
  match cacheKey with
  | some cacheKey => response.withCacheKey cacheKey
  | none => response

def okStream (body : Value) (events : List SseEvent) (cacheStatus : CacheStatus)
    (cacheWrite cacheTier : String) (cacheKey : Option CacheKey) : GatewayResponse :=
  let response := { withCacheHeaders 200 body cacheStatus cacheWrite cacheTier with streamEvents := some events }
  match cacheKey with
  | some cacheKey => response.withCacheKey cacheKey
  | none => response

def error (statusCode : Nat) (message : String) (cacheStatus : CacheStatus)
    (cacheWrite cacheTier : String) : GatewayResponse :=
  withCacheHeaders statusCode (.object [("error", .string message)]) cacheStatus cacheWrite cacheTier

@[simp] theorem withCacheCoalesced_statusCode (response : GatewayResponse) (role : String) :
    (response.withCacheCoalesced role).statusCode = response.statusCode := rfl
@[simp] theorem withCacheCoalesced_body (response : GatewayResponse) (role : String) :
    (response.withCacheCoalesced role).body = response.body := rfl
@[simp] theorem withCacheWrite_statusCode (response : GatewayResponse) (cacheWrite : String) :
    (response.withCacheWrite cacheWrite).statusCode = response.statusCode := rfl
@[simp] theorem withCacheWrite_body (response : GatewayResponse) (cacheWrite : String) :
    (response.withCacheWrite cacheWrite).body = response.body := rfl

section
variable (body : Value) (events : List SseEvent) (cacheStatus : CacheStatus) (cacheWrite cacheTier : String)
  (cacheKey : Option CacheKey)

@[simp] theorem ok_statusCode : (ok body cacheStatus cacheWrite cacheTier cacheKey).statusCode = 200 := by
  cases cacheKey <;> rfl
@[simp] theorem ok_body : (ok body cacheStatus cacheWrite cacheTier cacheKey).body = body := by
  cases cacheKey <;> rfl
@[simp] theorem okStream_statusCode :
    (okStream body events cacheStatus cacheWrite cacheTier cacheKey).statusCode = 200 := by
  cases cacheKey <;> rfl
@[simp] theorem okStream_body :
    (okStream body events cacheStatus cacheWrite cacheTier cacheKey).body = body := by
  cases cacheKey <;> rfl
@[simp] theorem ok_streamEvents : (ok body cacheStatus cacheWrite cacheTier cacheKey).streamEvents = none := by
  cases cacheKey <;> rfl
@[simp] theorem okStream_streamEvents :
    (okStream body events cacheStatus cacheWrite cacheTier cacheKey).streamEvents = some events := by
  cases cacheKey <;> rfl

/-- What the headers say of the cache, the store and the flight. -/
structure Labelled (response : GatewayResponse) (cacheStatus : CacheStatus) (cacheWrite coalesced : String) : Prop where
  status : response.headers.lookup "x-cache-status" = some (cacheStatusHeader cacheStatus)
  write : response.headers.lookup "x-cache-write" = some cacheWrite
  flight : response.headers.lookup "x-cache-coalesced" = some coalesced

variable {response : GatewayResponse} {statusCode : Nat} {cacheStatus cacheWrite}

theorem labelled_withCacheHeaders :
    (withCacheHeaders statusCode body cacheStatus cacheWrite cacheTier).Labelled cacheStatus cacheWrite "none" where
  status := by
    rw [withCacheHeaders, Finmap.lookup_insert_of_ne _ (by decide), Finmap.lookup_insert_of_ne _ (by decide),
      Finmap.lookup_insert_of_ne _ (by decide), Finmap.lookup_insert]
  write := by
    rw [withCacheHeaders, Finmap.lookup_insert_of_ne _ (by decide), Finmap.lookup_insert_of_ne _ (by decide),
      Finmap.lookup_insert]
  flight := Finmap.lookup_insert _

/-- Another header says nothing of the three. -/
theorem Labelled.withHeader {coalesced name value : String} (h : response.Labelled cacheStatus cacheWrite coalesced)
    (other : name ∉ ["x-cache-status", "x-cache-write", "x-cache-coalesced"]) :
    (response.withHeader name value).Labelled cacheStatus cacheWrite coalesced := by
  simp only [List.mem_cons, List.not_mem_nil, or_false, not_or] at other
  obtain ⟨status, write, flight⟩ := other
  exact ⟨(Finmap.lookup_insert_of_ne _ (Ne.symm status)).trans h.status,
    (Finmap.lookup_insert_of_ne _ (Ne.symm write)).trans h.write,
    (Finmap.lookup_insert_of_ne _ (Ne.symm flight)).trans h.flight⟩

theorem labelled_ok : (ok body cacheStatus cacheWrite cacheTier cacheKey).Labelled cacheStatus cacheWrite "none" := by
  cases cacheKey with
  | none => exact labelled_withCacheHeaders body cacheTier
  | some cacheKey => exact (labelled_withCacheHeaders body cacheTier).withHeader (by decide)

theorem labelled_okStream :
    (okStream body events cacheStatus cacheWrite cacheTier cacheKey).Labelled cacheStatus cacheWrite "none" := by
  have labelled : (withCacheHeaders 200 body cacheStatus cacheWrite cacheTier).Labelled cacheStatus cacheWrite "none" :=
    labelled_withCacheHeaders body cacheTier
  cases cacheKey with
  | none => exact ⟨labelled.status, labelled.write, labelled.flight⟩
  | some cacheKey =>
    exact Labelled.withHeader ⟨labelled.status, labelled.write, labelled.flight⟩ (by decide)

theorem labelled_error {message : String} :
    (error statusCode message cacheStatus cacheWrite cacheTier).Labelled cacheStatus cacheWrite "none" :=
  labelled_withCacheHeaders _ cacheTier

theorem Labelled.withCacheCoalesced {coalesced : String} (h : response.Labelled cacheStatus cacheWrite coalesced)
    (role : String) : (response.withCacheCoalesced role).Labelled cacheStatus cacheWrite role :=
  ⟨(Finmap.lookup_insert_of_ne _ (by decide)).trans h.status,
    (Finmap.lookup_insert_of_ne _ (by decide)).trans h.write, Finmap.lookup_insert _⟩

theorem Labelled.withCacheWrite {coalesced : String} (h : response.Labelled cacheStatus cacheWrite coalesced)
    (other : String) : (response.withCacheWrite other).Labelled cacheStatus other coalesced :=
  ⟨(Finmap.lookup_insert_of_ne _ (by decide)).trans h.status, Finmap.lookup_insert _,
    (Finmap.lookup_insert_of_ne _ (by decide)).trans h.flight⟩

theorem Labelled.withCacheKey {coalesced : String} (h : response.Labelled cacheStatus cacheWrite coalesced)
    (cacheKey : CacheKey) : (response.withCacheKey cacheKey).Labelled cacheStatus cacheWrite coalesced :=
  h.withHeader (by decide)

end
end GatewayResponse
end Mooncache
