import Mooncache.Common.Digest
import Mathlib.Data.String.Basic

/-! The tenant policies a gateway is loaded with. -/
namespace Mooncache

structure TenantConfig where
  id : TenantId
  enabled : Bool
  apiKeySha256 : String
  allowedVendors : List String
  deriving DecidableEq, Repr

/-- The tenants by name, in the order of their names. -/
structure TenantConfigSet where
  tenants : List (String × TenantConfig)
  sorted : (tenants.map Prod.fst).Pairwise (· < ·)

variable [Sha256]

def sha256Hex (text : String) : String := lowerHex (sha256 text.toUTF8.toList)

namespace TenantConfigSet

def tenant (configs : TenantConfigSet) (tenantId : String) : Option TenantConfig :=
  configs.tenants.lookup tenantId

def tenantForBearerToken (configs : TenantConfigSet) (token : String) : Option TenantConfig :=
  let digest := sha256Hex token
  (configs.tenants.map Prod.snd).find? fun tenant => tenant.enabled ∧ tenant.apiKeySha256 = digest

end TenantConfigSet
end Mooncache
