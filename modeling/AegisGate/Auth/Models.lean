import Mathlib.Data.Rat.Defs

/-!
# Records of the identity store

`src/auth/auth_models.h`: roles, tenants, users, API keys, SSO providers, identity mappings,
sessions and the context a request carries once its credential has been resolved.
-/

namespace AegisGate

inductive Role where
  | viewer
  | developer
  | tenantAdmin
  | superAdmin
  deriving DecidableEq, Repr

def roleToString : Role → String
  | .viewer => "viewer"
  | .developer => "developer"
  | .tenantAdmin => "tenant_admin"
  | .superAdmin => "super_admin"

def Role.rank : Role → Nat
  | .viewer => 0
  | .developer => 1
  | .tenantAdmin => 2
  | .superAdmin => 3

def roleFromString (s : String) : Option Role :=
  if s = "viewer" then some .viewer
  else if s = "developer" then some .developer
  else if s = "tenant_admin" then some .tenantAdmin
  else if s = "super_admin" then some .superAdmin
  else none

lemma roleFromString_roleToString (r : Role) : roleFromString (roleToString r) = some r := by
  cases r <;> decide

structure Tenant where
  id : String
  name : String := ""
  status : String := "active"
  modelWhitelist : List String := []
  dailyCostLimit : ℚ := -1
  monthlyCostLimit : ℚ := -1
  rateLimitTokens : Int := -1
  rateLimitRefill : ℚ := -1
  deriving DecidableEq

structure User where
  id : String
  tenantId : String
  username : String
  displayName : String := ""
  role : Role := .viewer
  status : String := "active"
  deriving DecidableEq

structure ApiKeyRecord where
  id : String
  userId : String
  tenantId : String
  keyPrefix : String
  keyHash : String
  role : Role := .developer
  status : String := "active"
  expiresAt : String := ""
  deriving DecidableEq

structure AuthContext where
  tenantId : String
  userId : String
  apiKeyId : String := ""
  role : Role := .viewer
  isRbacEnabled : Bool := false
  sessionId : String := ""
  authMethod : String := ""
  mfaVerified : Bool := false
  deriving DecidableEq

structure SsoProvider where
  id : String
  tenantId : String
  issuerUrl : String
  clientId : String := ""
  claimMappingJson : String := ""
  groupRoleMappingJson : String := ""
  jitProvisioning : Bool := true
  defaultRole : String := "viewer"
  enabled : Bool := true
  deriving DecidableEq

structure IdentityMapping where
  id : String
  tenantId : String
  externalSubject : String
  externalIssuer : String
  userId : String
  email : String := ""
  lastLoginAt : String := ""
  createdAt : String := ""
  deriving DecidableEq

structure Session where
  id : String
  userId : String
  tenantId : String
  ipAddress : String := ""
  userAgent : String := ""
  authMethod : String := ""
  mfaVerified : Bool := false
  createdAt : String := ""
  lastActiveAt : String := ""
  expiresAt : String := ""
  deriving DecidableEq

end AegisGate
