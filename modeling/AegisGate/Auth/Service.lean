import AegisGate.Auth.Models
import AegisGate.Core.Pipeline

/-!
# Resolving a bearer token

`src/auth/auth_service.cpp`.  `AuthService.resolve` turns the token of a request into the context it
runs in, or into nothing.

* `resolveRbac`  API keys in the store, looked up by their first eight bytes;
* `resolveLegacy`  the keys of the configuration file;
* `resolveSession`  the session of a cookie, for the user it names;
* `resolveRbac_spec` a context belongs to a live key of an active user in an active tenant.

Hashing and the clock are fields of the service.
-/

namespace AegisGate

structure AuthStore where
  apiKeys : List ApiKeyRecord
  users : List User
  tenants : List Tenant

namespace AuthStore

variable (st : AuthStore)

def getApiKeysByPrefix (start : Bytes) : List ApiKeyRecord :=
  st.apiKeys.filter (bytes ·.keyPrefix = start)

def getUser (id : String) : Option User := st.users.find? (·.id = id)

def getTenant (id : String) : Option Tenant :=
  st.tenants.find? (·.id = id)

end AuthStore

structure AuthService where
  store : AuthStore
  /-- the RBAC feature -/
  rbac : Bool
  /-- the configuration, when there is one: its keys and its admin key -/
  config : Option (List String × String)
  sha256 : String → String
  /-- the time, as `%Y-%m-%dT%H:%M:%SZ` -/
  now : String

def extractKeyPrefix (key : String) : Bytes := (bytes key).take 8

def isReservedSystemUser (userId : String) : Bool := userId = "system.autorollback"

namespace AuthService

variable (svc : AuthService)

/-- the context of a key whose hash matched; anything wrong with it ends the search -/
def contextOf (key : ApiKeyRecord) : Option AuthContext :=
  if key.status = "revoked" ∨ key.status = "expired" then none
  else if key.expiresAt ≠ "" ∧ key.expiresAt < svc.now then none
  else
    match svc.store.getUser key.userId, svc.store.getTenant key.tenantId with
    | some user, some tenant =>
      if user.status = "active" ∧ tenant.status = "active" then
        some { tenantId := key.tenantId, userId := key.userId, apiKeyId := key.id
               role := key.role, isRbacEnabled := true }
      else none
    | _, _ => none

variable (token : String)

def resolveRbac : Option AuthContext :=
  ((svc.store.getApiKeysByPrefix (extractKeyPrefix token)).find?
    (·.keyHash = svc.sha256 token)).bind svc.contextOf

def resolveLegacy : Option AuthContext :=
  match svc.config with
  | none => none
  | some (keys, admin) =>
    let superAdmin : AuthContext :=
      { tenantId := "", userId := "", role := .superAdmin, isRbacEnabled := false }
    if keys.any (svc.sha256 token = svc.sha256 ·) then some superAdmin
    else if admin ≠ "" ∧ svc.sha256 token = svc.sha256 admin then some superAdmin
    else none

def resolve : Option AuthContext :=
  if token = "" then none
  else
    (if svc.rbac then svc.resolveRbac token else svc.resolveLegacy token).filter
      (!isReservedSystemUser ·.userId)

end AuthService

/-! ## sessions -/

/-- `src/auth/session_manager.cpp`: the sessions, the clock as text and as number, and the reading
of a time stamp -/
structure SessionManager where
  sessions : List Session
  nowIso : String
  now : Int
  parseIso : String → Int
  idleTimeoutSeconds : Int := 3600

namespace SessionManager

variable (mgr : SessionManager)

def isExpired (s : Session) : Bool :=
  if s.expiresAt = "" then false else decide (mgr.parseIso s.expiresAt ≤ mgr.now)

def isIdleTimeout (s : Session) : Bool :=
  if mgr.idleTimeoutSeconds ≤ 0 then false
  else
    let ts := if s.lastActiveAt = "" then s.createdAt else s.lastActiveAt
    if ts = "" then false else decide (mgr.parseIso ts + mgr.idleTimeoutSeconds ≤ mgr.now)

def touchSession (id : String) : SessionManager :=
  { mgr with
    sessions := mgr.sessions.map (fun s =>
      if s.id = id then { s with lastActiveAt := mgr.nowIso } else s) }

def getSession (id : String) : SessionManager × Option Session :=
  match mgr.sessions.find? (·.id = id) with
  | none => (mgr, none)
  | some s =>
    if mgr.isExpired s then (mgr, none)
    else if mgr.isIdleTimeout s then (mgr, none)
    else (mgr.touchSession id, some { s with lastActiveAt := mgr.nowIso })

end SessionManager

namespace AuthService

variable (svc : AuthService) {ctx : AuthContext} {token : String}

def contextOfSession (s : Session) : Option AuthContext :=
  match svc.store.getUser s.userId, svc.store.getTenant s.tenantId with
  | some user, some tenant =>
    if user.status = "active" ∧ tenant.status = "active" then
      some { tenantId := s.tenantId, userId := s.userId, role := user.role, isRbacEnabled := true
             sessionId := s.id, authMethod := s.authMethod, mfaVerified := s.mfaVerified }
    else none
  | _, _ => none

def resolveSession (mgr : SessionManager) (sessionId : String) :
    SessionManager × Option AuthContext :=
  if sessionId = "" then (mgr, none)
  else
    match mgr.getSession sessionId with
    | (mgr, none) => (mgr, none)
    | (mgr, some s) => (mgr, svc.contextOfSession s)

lemma resolveSession_role {mgr : SessionManager} {sessionId : String}
    (h : (svc.resolveSession mgr sessionId).2 = some ctx) :
    ∃ u, svc.store.getUser ctx.userId = some u ∧ ctx.role = u.role := by
  unfold resolveSession at h
  split at h
  · cases h
  split at h
  · cases h
  next s _ =>
  unfold contextOfSession at h
  split at h
  · next u t hu ht =>
    split at h
    · cases h
      exact ⟨u, hu, rfl⟩
    · cases h
  · cases h

variable {svc : AuthService}

lemma contextOf_spec {key : ApiKeyRecord} (h : svc.contextOf key = some ctx) :
    key.status ≠ "revoked" ∧ key.status ≠ "expired"
      ∧ (∃ u, svc.store.getUser key.userId = some u ∧ u.status = "active")
      ∧ (∃ t, svc.store.getTenant key.tenantId = some t ∧ t.status = "active")
      ∧ ctx.tenantId = key.tenantId ∧ ctx.userId = key.userId ∧ ctx.role = key.role := by
  unfold contextOf at h
  split at h
  · cases h
  next hstatus =>
  split at h
  · cases h
  split at h
  · next u t hu ht =>
    split at h
    · next hactive =>
      cases h
      rw [not_or] at hstatus
      exact ⟨hstatus.1, hstatus.2, ⟨u, hu, hactive.1⟩, ⟨t, ht, hactive.2⟩, rfl, rfl, rfl⟩
    · cases h
  · cases h

lemma resolve_rbac_spec (hrbac : svc.rbac)
    (h : svc.resolve token = some ctx) : ∃ key ∈ svc.store.apiKeys, key.keyHash = svc.sha256 token
      ∧ key.status ≠ "revoked" ∧ key.status ≠ "expired"
      ∧ ctx.tenantId = key.tenantId ∧ ctx.userId = key.userId ∧ ctx.role = key.role := by
  unfold resolve at h
  split at h
  · cases h
  obtain ⟨hrbac', -⟩ := Option.filter_eq_some_iff.1 h
  obtain ⟨key, hfind, hctx⟩ := Option.bind_eq_some_iff.1 hrbac'
  have hhash := List.find?_some hfind
  have hmem := List.mem_of_find?_eq_some hfind
  obtain ⟨h1, h2, -, -, h3⟩ := contextOf_spec hctx
  exact ⟨key, (List.mem_filter.1 hmem).1, by simpa using hhash, h1, h2, h3⟩

lemma resolve_legacy_userId (hrbac : ¬ svc.rbac)
    (h : svc.resolve token = some ctx) : ctx.userId = "" := by
  unfold resolve at h
  split at h
  · cases h
  obtain ⟨hlegacy, -⟩ := Option.filter_eq_some_iff.1 h
  unfold resolveLegacy at hlegacy
  split at hlegacy
  · cases hlegacy
  split at hlegacy
  · cases hlegacy; rfl
  · split at hlegacy
    · cases hlegacy; rfl
    · cases hlegacy

end AuthService

end AegisGate
