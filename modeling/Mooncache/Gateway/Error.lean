import Mooncache.Store.Memory

/-! What a gateway request can fail with. -/
namespace Mooncache

inductive VendorError where
  | httpStatus (status : Nat) (body : String)
  | transport (message : String)
  | invalidResponse (message : String)
  deriving DecidableEq, Repr

/-- The error's display text. -/
def VendorError.text : VendorError → String
  | .httpStatus status body => s!"vendor returned HTTP {status}: {body}"
  | .transport message => "vendor transport error: " ++ message
  | .invalidResponse message => "vendor response was invalid: " ++ message

/-- A JSON error is carried as its display text. -/
inductive GatewayError where
  | cache (err : CacheError)
  | store (err : StoreError)
  | vendor (err : VendorError)
  | json (message : String)
  | poisonedLock
  | reservationRevokeFailed (writeError revokeError : String)
  | singleflightLeaderFailed (message : String)
  | masterUpstream (message : String)
  | storeUpstream (message : String)
  deriving DecidableEq, Repr

/-- The error's display text. -/
def GatewayError.text : GatewayError → String
  | .cache err => err.text
  | .store err => err.text
  | .vendor err => err.text
  | .json message => message
  | .poisonedLock => "gateway state lock was poisoned"
  | .reservationRevokeFailed writeError revokeError =>
    s!"cache write failed ({writeError}); additionally failed to revoke reservation ({revokeError})"
  | .singleflightLeaderFailed message => "singleflight leader failed: " ++ message
  | .masterUpstream message => "master upstream error: " ++ message
  | .storeUpstream message => "store upstream error: " ++ message

abbrev GatewayResult := Except GatewayError

end Mooncache
