import Mooncache.Common.Json
import Mooncache.Common.Ids

/-! The cache-control header and the request fields that decide eligibility. -/
namespace Mooncache

inductive CacheControl where
  | default
  | bypass
  | readOnly
  | writeOnly
  | cacheOnly
  | forceReplay
  deriving DecidableEq, Repr

inductive HeaderError where
  | invalidCacheControl (value : String)
  deriving DecidableEq, Repr

/-- The error's display text. -/
def HeaderError.text : HeaderError → String
  | .invalidCacheControl value => "invalid cache control: " ++ value

/-- `str::trim`. -/
def trim (chars : List Char) : List Char :=
  ((chars.dropWhile isWhiteSpace).reverse.dropWhile isWhiteSpace).reverse

def toAsciiLowercase (c : Char) : Char :=
  if 'A' ≤ c ∧ c ≤ 'Z' then Char.ofNat (c.toNat + 32) else c

def CacheControl.parse (value : String) : Except HeaderError CacheControl :=
  match String.ofList ((trim value.toList).map toAsciiLowercase) with
  | "" | "default" => .ok .default
  | "bypass" => .ok .bypass
  | "read-only" => .ok .readOnly
  | "write-only" => .ok .writeOnly
  | "cache-only" => .ok .cacheOnly
  | "force-replay" => .ok .forceReplay
  | other => .error (.invalidCacheControl other)

example : CacheControl.parse " Cache-Only " = .ok .cacheOnly := by decide

inductive CacheStatus where
  | hit
  | miss
  | bypass
  | ineligible
  | cacheOnlyMiss
  | degraded
  deriving DecidableEq, Repr

inductive EligibilityDecision where
  | cacheable
  | bypass (reason : String)
  deriving DecidableEq, Repr

/-- `as_f64` of the number compares equal to `0.0`: an integer is zero, or the
float is one of the two zeros. -/
def Number.isZero : Number → Bool
  | .posInt n => n = 0
  | .negInt n => n = 0
  | .float bits => bits = 0 ∨ bits = 0x8000000000000000

def classifyRequest (body : Value) (forceReplay : Bool) : EligibilityDecision :=
  if forceReplay then .cacheable
  else match body.get "temperature" with
    | some (.number temperature) =>
      if temperature.isZero then .cacheable
      else .bypass "stochastic temperature requires explicit force replay"
    | _ => .cacheable

end Mooncache
