import Mathlib.Data.List.Nodup
import AegisGate.Auth.Service
import AegisGate.Core.ErrorCodes
import AegisGate.Core.Json
import AegisGate.Lib.Run

/-!
# Tenants, users and API keys: the IAM controller

`src/server/admin_iam_controller.cpp` over `src/auth/authorization.h` and the identity part of
`MemoryPersistentStore`.

* `authorize`, `canGrantRole`  the two checks of the actor;
* `createUser` … `rotateApiKey`  the nine calls that write, with the store after them;
* `iamStep`  one call of any kind;
* `Done`, `iamStep_done`  what a call that succeeded found and did.

Timestamps, key names and the audit log are left out, since no modelled function reads them; so are
the calls that only read.  Ids, random bytes, the iteration order of the hash maps and the writes
that the back end refuses are drawn with each call.
-/

namespace AegisGate

open List Json

/-! ## authorization -/

section
variable (ctx : AuthContext)

def requireRole (required : Role) : Bool :=
  if !ctx.isRbacEnabled then true else decide (required.rank ≤ ctx.role.rank)

def requireTenantAccess (targetTenantId : String) : Bool :=
  if !ctx.isRbacEnabled then true
  else if ctx.role = .superAdmin then true
  else decide (ctx.tenantId = targetTenantId)

def authorize (required : Role) (targetTenantId : String) : Bool :=
  requireRole ctx required && requireTenantAccess ctx targetTenantId

def canGrantRole (target : Role) : Bool :=
  if !ctx.isRbacEnabled then true else decide (target.rank ≤ ctx.role.rank)

end

lemma authorize_iff {ctx : AuthContext} {required : Role} {tenantId : String}
    (h : ctx.isRbacEnabled) : authorize ctx required tenantId ↔
      required.rank ≤ ctx.role.rank ∧ (ctx.role = .superAdmin ∨ ctx.tenantId = tenantId) := by
  by_cases hs : ctx.role = .superAdmin <;>
    simp [authorize, requireRole, requireTenantAccess, h, hs]

/-! ## the store -/

/-- the order in which a hash map is walked -/
structure Iteration (α : Type) where
  arrange : List α → List α
  perm : ∀ l, (arrange l).Perm l

def Iteration.stored {α : Type} : Iteration α := ⟨id, fun _ => .refl _⟩

namespace AuthStore

variable (st : AuthStore)

def getUserByUsername (tenantId username : String) : Option User :=
  st.users.find? (fun u => decide (u.tenantId = tenantId ∧ u.username = username))

def insertUser (u : User) : Option AuthStore :=
  if (st.getUser u.id).isSome then none
  else if (st.getUserByUsername u.tenantId u.username).isSome then none
  else some { st with users := u :: st.users }

def updateUser (u : User) : Option AuthStore :=
  if (st.getUser u.id).isNone then none
  else some { st with users := st.users.map (fun v => if v.id = u.id then u else v) }

def deleteUser (id : String) : Option AuthStore :=
  if (st.getUser id).isNone then none
  else some { st with users := st.users.filter (·.id ≠ id) }

def insertTenant (t : Tenant) : Option AuthStore :=
  if (st.getTenant t.id).isSome then none else some { st with tenants := t :: st.tenants }

def updateTenant (t : Tenant) : Option AuthStore :=
  if (st.getTenant t.id).isNone then none
  else some { st with tenants := st.tenants.map (fun v => if v.id = t.id then t else v) }

def deleteTenant (id : String) : Option AuthStore :=
  if (st.getTenant id).isNone then none
  else some { st with tenants := st.tenants.filter (·.id ≠ id) }

/-- the first `limit` tenants after `offset`; a limit below one still gives one -/
def listTenants (order : Iteration Tenant) (limit offset : Nat) : List Tenant :=
  ((order.arrange st.tenants).drop offset).take (max limit 1)

def insertApiKey (key : ApiKeyRecord) : Option AuthStore :=
  if st.apiKeys.any (·.id = key.id) then none
  else some { st with apiKeys := key :: st.apiKeys }

def revokeApiKey (id : String) : Option AuthStore :=
  if st.apiKeys.any (·.id = id) then
    some { st with
      apiKeys := st.apiKeys.map (fun k => if k.id = id then { k with status := "revoked" } else k) }
  else none

def listApiKeys (order : Iteration ApiKeyRecord) (tenantId : String)
    (limit offset : Nat) : List ApiKeyRecord :=
  (((order.arrange st.apiKeys).filter (tenantId = "" ∨ ·.tenantId = tenantId)).drop
    offset).take (max limit 1)

lemma insertApiKey_some {st st' : AuthStore} {key : ApiKeyRecord} :
    st.insertApiKey key = some st' ↔
      (∀ k ∈ st.apiKeys, k.id ≠ key.id) ∧ { st with apiKeys := key :: st.apiKeys } = st' := by
  unfold insertApiKey
  split
  · next h =>
    obtain ⟨k, hk, hid⟩ := any_eq_true.1 h
    exact ⟨nofun, fun hn => absurd (of_decide_eq_true hid) (hn.1 k hk)⟩
  · next h =>
    rw [Option.some_inj]
    have hfresh : ∀ k ∈ st.apiKeys, k.id ≠ key.id := by simpa using h
    exact ⟨fun e => ⟨hfresh, e⟩, fun e => e.2⟩

end AuthStore

/-- the keys of the map are the ids of the records -/
def AuthStore.Keyed (st : AuthStore) : Prop := (st.apiKeys.map (·.id)).Nodup

lemma AuthStore.Keyed.eq {st : AuthStore} (h : st.Keyed) {k k' : ApiKeyRecord}
    (hk : k ∈ st.apiKeys) (hk' : k' ∈ st.apiKeys) (hid : k.id = k'.id) : k = k' :=
  inj_on_of_nodup_map h hk hk' hid

namespace Iam

/-! ## calls and their answers -/

/-- what a call draws: the id, the bytes of `RAND_bytes` or its failure, the order of the two maps,
and which writes the back end takes -/
structure Draw where
  id : String
  id_ne : id ≠ ""
  randomBytes : Option (List UInt8)
  keyOrder : Iteration ApiKeyRecord
  tenantOrder : Iteration Tenant
  accepts : Nat → Bool

inductive AdminFailure where
  | error (e : GatewayError)
  | typeError (e : TypeError)
  | randFailed
  deriving DecidableEq

inductive Answer where
  | tenant (t : Tenant)
  | user (u : User)
  | apiKey (k : ApiKeyRecord) (rawKey : String) (rotatedFrom : Option String)
  | deleted
  | revoked

abbrev AdminResult := Except AdminFailure Answer

abbrev Checked (α : Type) := Except AdminFailure α

def refuse {α : Type} (code : ErrorCode) (msg : String := "") : Checked α :=
  .error (.error (makeError code msg))

def ensure (b : Bool) (code : ErrorCode) (msg : String := "") : Checked Unit :=
  if b then .ok () else refuse code msg

def found {α : Type} (o : Option α) (code : ErrorCode) (msg : String := "") : Checked α :=
  match o with
  | none => refuse code msg
  | some a => .ok a

def field {α : Type} : Except TypeError α → Checked α
  | .error e => .error (.typeError e)
  | .ok a => .ok a

/-- `if (body.contains(name)) x = body[name].get<T>()` -/
def orKeep {α : Type} (body : Json) (name : String) (get : Except TypeError α) (old : α) :
    Checked α :=
  if body.contains name then field get else .ok old

section
variable {α β : Type} {f : α → Checked β} {r : β} {code : ErrorCode} {msg : String} {a : α}

lemma bind_ok {x : Checked α} : (x >>= f) = .ok r ↔ ∃ a, x = .ok a ∧ f a = .ok r := by
  refine ⟨bind_eq_ok, ?_⟩
  rintro ⟨a, rfl, h⟩
  exact h

lemma ensure_ok {b : Bool} {u : Unit} : ensure b code msg = .ok u ↔ b := by
  cases b <;> simp [ensure, refuse]

lemma found_ok {o : Option α} : found o code msg = .ok a ↔ o = some a := by
  cases o <;> simp [found, refuse]

lemma field_ok {x : Except TypeError α} : field x = .ok a ↔ x = .ok a := by
  cases x <;> simp [field]

lemma checked_ok {x : Checked α} {p : α → Bool} :
    (x >>= fun a => ensure (p a) code msg >>= fun _ => pure a) = .ok a ↔ x = .ok a ∧ p a := by
  simp only [bind_ok, ensure_ok]
  constructor
  · rintro ⟨b, hb, -, hp, h⟩
    cases h
    exact ⟨hb, hp⟩
  · rintro ⟨hx, hp⟩
    exact ⟨a, hx, (), hp, rfl⟩

end

def valueStrings (j : Json) (k : String) : Except TypeError (List String) :=
  match j.find? k with
  | some (.arr l) =>
    l.mapM fun
      | .str s => .ok s
      | _ => .error ⟨302⟩
  | _ => .error ⟨302⟩

def attempt {α : Type} (st : AuthStore) (checked : Checked α)
    (k : α → AuthStore × AdminResult) : AuthStore × AdminResult :=
  match checked with
  | .error e => (st, .error e)
  | .ok a => k a

section
variable (st : AuthStore)

/-- a write and its two answers; a store that refuses leaves everything as it was -/
def commit (accepted : Bool) (written : Option AuthStore) (answer : Answer)
    (msg : String) (code : ErrorCode := .internalError) : AuthStore × AdminResult :=
  match (if accepted then written else none) with
  | none => (st, refuse code msg)
  | some st' => (st', .ok answer)

def base62Chars : List Char :=
  "0123456789ABCDEFGHIJKLMNOPQRSTUVWXYZabcdefghijklmnopqrstuvwxyz".toList

/-- `sk-` and one character for each random byte -/
def generateApiKey (d : Draw) : Checked String :=
  match d.randomBytes with
  | none => .error .randFailed
  | some buf =>
    .ok ("sk-" ++ String.ofList (buf.map (fun b => base62Chars.getD (b.toNat % 62) '0')))

def keyPrefixOf (rawKey : String) : String := String.ofList (rawKey.toList.take 8)

/-! ## tenants -/

variable (ctx : AuthContext) (body : Json) (d : Draw)

def newTenant : Checked Tenant := do
  ensure (requireRole ctx .superAdmin) .insufficientPermissions
  let name ← field (body.valueStr "name" "")
  ensure (name ≠ "") .missingRequiredField "Field 'name' is required"
  let status ← field (body.valueStr "status" "active")
  let modelWhitelist ← orKeep body "model_whitelist" (valueStrings body "model_whitelist") []
  let dailyCostLimit ← field (body.valueDouble "daily_cost_limit" (-1))
  let monthlyCostLimit ← field (body.valueDouble "monthly_cost_limit" (-1))
  let rateLimitTokens ← field (body.valueInt "rate_limit_tokens" (-1))
  let rateLimitRefill ← field (body.valueDouble "rate_limit_refill" (-1))
  ensure (!(st.listTenants d.tenantOrder 1000 0).any (·.name = name)) .tenantNameExists
  pure { id := d.id, name, status, modelWhitelist, dailyCostLimit, monthlyCostLimit,
         rateLimitTokens, rateLimitRefill }

def createTenant : AuthStore × AdminResult :=
  attempt st (newTenant st ctx body d) fun t =>
    commit st (d.accepts 0) (st.insertTenant t) (.tenant t) "Failed to create tenant"

def changedTenant (id : String) (body : Json) : Checked Tenant := do
  ensure (authorize ctx .superAdmin id) .insufficientPermissions
  let t ← found (st.getTenant id) .invalidRequest "Tenant not found"
  let name ← orKeep body "name" (body.valueStr "name" "") t.name
  let status ← orKeep body "status" (body.valueStr "status" "") t.status
  let modelWhitelist ←
    orKeep body "model_whitelist" (valueStrings body "model_whitelist") t.modelWhitelist
  let dailyCostLimit ←
    orKeep body "daily_cost_limit" (body.valueDouble "daily_cost_limit" 0) t.dailyCostLimit
  let monthlyCostLimit ←
    orKeep body "monthly_cost_limit" (body.valueDouble "monthly_cost_limit" 0) t.monthlyCostLimit
  let rateLimitTokens ←
    orKeep body "rate_limit_tokens" (body.valueInt "rate_limit_tokens" 0) t.rateLimitTokens
  let rateLimitRefill ←
    orKeep body "rate_limit_refill" (body.valueDouble "rate_limit_refill" 0) t.rateLimitRefill
  pure { t with name, status, modelWhitelist, dailyCostLimit, monthlyCostLimit, rateLimitTokens,
                rateLimitRefill }

def updateTenant (st : AuthStore) (ctx : AuthContext) (id : String) (body : Json) (d : Draw) :
    AuthStore × AdminResult :=
  attempt st (changedTenant st ctx id body) fun t =>
    commit st (d.accepts 0) (st.updateTenant t) (.tenant t) "Failed to update tenant"

def deleteTenant (st : AuthStore) (ctx : AuthContext) (id : String) (d : Draw) :
    AuthStore × AdminResult :=
  attempt st (ensure (requireRole ctx .superAdmin) .insufficientPermissions) fun _ =>
    commit st (d.accepts 0) (st.deleteTenant id) .deleted "Tenant not found" .invalidRequest

/-! ## users -/

def newUser : Checked User := do
  let requested ← field (body.valueStr "tenant_id" "")
  let tenantId := if requested = "" then ctx.tenantId else requested
  ensure (authorize ctx .tenantAdmin tenantId) .insufficientPermissions
  let username ← field (body.valueStr "username" "")
  ensure (username ≠ "") .missingRequiredField "Field 'username' is required"
  let displayName ← field (body.valueStr "display_name" "")
  let roleStr ← field (body.valueStr "role" "viewer")
  let role ← found (roleFromString roleStr) .invalidRequest ("Invalid role: " ++ roleStr)
  ensure (canGrantRole ctx role) .insufficientPermissions
    "Cannot assign a role higher than your own"
  ensure (st.getUserByUsername tenantId username).isNone .usernameExists
  pure { id := d.id, tenantId, username, displayName, role, status := "active" }

def createUser : AuthStore × AdminResult :=
  attempt st (newUser st ctx body d) fun u =>
    commit st (d.accepts 0) (st.insertUser u) (.user u) "Failed to create user"

def changedRole (old : Role) : Checked Role :=
  if body.contains "role" then do
    let roleStr ← field (body.valueStr "role" "")
    let role ← found (roleFromString roleStr) .invalidRequest "Invalid role"
    ensure (canGrantRole ctx role) .insufficientPermissions
      "Cannot assign a role higher than your own"
    pure role
  else pure old

def changedUser (id : String) (body : Json) : Checked User := do
  let u ← found (st.getUser id) .invalidRequest "User not found"
  ensure (authorize ctx .tenantAdmin u.tenantId) .insufficientPermissions
  let displayName ← orKeep body "display_name" (body.valueStr "display_name" "") u.displayName
  let role ← changedRole ctx body u.role
  let status ← orKeep body "status" (body.valueStr "status" "") u.status
  pure { u with displayName, role, status }

def updateUser (st : AuthStore) (ctx : AuthContext) (id : String) (body : Json) (d : Draw) :
    AuthStore × AdminResult :=
  attempt st (changedUser st ctx id body) fun u =>
    commit st (d.accepts 0) (st.updateUser u) (.user u) "Failed to update user"

def deletableUser (id : String) : Checked User := do
  let u ← found (st.getUser id) .invalidRequest "User not found"
  ensure (authorize ctx .tenantAdmin u.tenantId) .insufficientPermissions
  pure u

end

def deleteUser (st : AuthStore) (ctx : AuthContext) (id : String) (d : Draw) :
    AuthStore × AdminResult :=
  attempt st (deletableUser st ctx id) fun _ =>
    commit st (d.accepts 0) (st.deleteUser id) .deleted "Failed to delete user"

/-! ## API keys -/

section
variable (sha256 : String → String)

section
variable (st : AuthStore) (ctx : AuthContext)

def newApiKey (body : Json) (d : Draw) : Checked (ApiKeyRecord × String) := do
  let userId ← field (body.valueStr "user_id" "")
  ensure (userId ≠ "") .missingRequiredField "Field 'user_id' is required"
  let user ← found (st.getUser userId) .invalidRequest "User not found"
  ensure (authorize ctx .tenantAdmin user.tenantId) .insufficientPermissions
  let rawKey ← generateApiKey d
  let _ ← field (body.valueStr "name" "")
  let roleStr ← field (body.valueStr "role" (roleToString user.role))
  -- a text that names no role is no error here, unlike in the calls on users
  let role := (roleFromString roleStr).getD user.role
  ensure (canGrantRole ctx role) .insufficientPermissions
    "Cannot issue a key with a role higher than your own"
  let expiresAt ← orKeep body "expires_at" (body.valueStr "expires_at" "") ""
  pure ({ id := d.id, userId, tenantId := user.tenantId, keyPrefix := keyPrefixOf rawKey,
          keyHash := sha256 rawKey, role, status := "active", expiresAt }, rawKey)

def createApiKey (body : Json) (d : Draw) : AuthStore × AdminResult :=
  attempt st (newApiKey sha256 st ctx body d) fun (k, rawKey) =>
    commit st (d.accepts 0) (st.insertApiKey k) (.apiKey k rawKey none) "Failed to create API key"

/-- the key of an id, among the first ten thousand -/
def findKey (d : Draw) (id : String) : Option ApiKeyRecord :=
  (st.listApiKeys d.keyOrder "" 10000 0).find? (·.id = id)

def revocableKey (id : String) (d : Draw) : Checked ApiKeyRecord := do
  let k ← found (findKey st d id) .invalidRequest "API key not found"
  ensure (authorize ctx .tenantAdmin k.tenantId) .insufficientPermissions
  pure k

def revokeApiKey (st : AuthStore) (ctx : AuthContext) (id : String) (d : Draw) :
    AuthStore × AdminResult :=
  attempt st (revocableKey st ctx id d) fun _ =>
    commit st (d.accepts 0) (st.revokeApiKey id) .revoked "Failed to revoke API key"

def rotatableKey (id : String) (d : Draw) : Checked ApiKeyRecord := do
  let k ← revocableKey st ctx id d
  ensure (canGrantRole ctx k.role) .insufficientPermissions
    "Cannot rotate a key with a role higher than your own"
  pure k

/-- the new key takes the role of the old one and no expiry -/
def rotated (k : ApiKeyRecord) (d : Draw) (rawKey : String) : ApiKeyRecord :=
  { id := d.id, userId := k.userId, tenantId := k.tenantId, keyPrefix := keyPrefixOf rawKey,
    keyHash := sha256 rawKey, role := k.role, status := "active" }

/-- the store after the first write of a rotation, accepted or not -/
def afterRevoke (id : String) (accepted : Bool) : AuthStore :=
  (if accepted then st.revokeApiKey id else none).getD st

def rotateApiKey (id : String) (d : Draw) : AuthStore × AdminResult :=
  attempt st (rotatableKey st ctx id d) fun k =>
    -- the answer of this write is not looked at
    let st := afterRevoke st id (d.accepts 0)
    attempt st (generateApiKey d) fun rawKey =>
      commit st (d.accepts 1) (st.insertApiKey (rotated sha256 k d rawKey))
        (.apiKey (rotated sha256 k d rawKey) rawKey (some id)) "Failed to create rotated key"

/-! ## one call -/

inductive Call where
  | createTenant (body : Json)
  | updateTenant (id : String) (body : Json)
  | deleteTenant (id : String)
  | createUser (body : Json)
  | updateUser (id : String) (body : Json)
  | deleteUser (id : String)
  | createApiKey (body : Json)
  | revokeApiKey (id : String)
  | rotateApiKey (id : String)

structure Event where
  actor : AuthContext
  call : Call
  draw : Draw

def perform (e : Event) : AuthStore × AdminResult :=
  match e.call with
  | .createTenant body => createTenant st e.actor body e.draw
  | .updateTenant id body => updateTenant st e.actor id body e.draw
  | .deleteTenant id => deleteTenant st e.actor id e.draw
  | .createUser body => createUser st e.actor body e.draw
  | .updateUser id body => updateUser st e.actor id body e.draw
  | .deleteUser id => deleteUser st e.actor id e.draw
  | .createApiKey body => createApiKey sha256 st e.actor body e.draw
  | .revokeApiKey id => revokeApiKey st e.actor id e.draw
  | .rotateApiKey id => rotateApiKey sha256 st e.actor id e.draw

def iamStep (e : Event) : AuthStore := (perform sha256 st e).1

def succeeds (e : Event) : Bool := (perform sha256 st e).2.isOk

end

inductive Done (st : AuthStore) (ctx : AuthContext) (d : Draw) : Call → AuthStore → Prop
  | createTenant {body l} : Done st ctx d (.createTenant body) { st with tenants := l }
  | updateTenant {id body l} : Done st ctx d (.updateTenant id body) { st with tenants := l }
  | deleteTenant {id l} : Done st ctx d (.deleteTenant id) { st with tenants := l }
  | createUser {body u} (hnew : newUser st ctx body d = .ok u) (hfresh : st.getUser u.id = none) :
      Done st ctx d (.createUser body) { st with users := u :: st.users }
  | updateUser {id body u} (hchanged : changedUser st ctx id body = .ok u) :
      Done st ctx d (.updateUser id body)
        { st with users := st.users.map (fun v => if v.id = u.id then u else v) }
  | deleteUser {id u} (hu : deletableUser st ctx id = .ok u) :
      Done st ctx d (.deleteUser id) { st with users := st.users.filter (·.id ≠ id) }
  | createApiKey {body k rawKey} (hnew : newApiKey sha256 st ctx body d = .ok (k, rawKey))
      (hfresh : ∀ k' ∈ st.apiKeys, k'.id ≠ k.id) :
      Done st ctx d (.createApiKey body) { st with apiKeys := k :: st.apiKeys }
  | revokeApiKey {id k} (hk : revocableKey st ctx id d = .ok k) :
      Done st ctx d (.revokeApiKey id) (afterRevoke st id true)
  | rotateApiKey {id k rawKey} (hk : rotatableKey st ctx id d = .ok k)
      (hfresh : ∀ k' ∈ (afterRevoke st id (d.accepts 0)).apiKeys, k'.id ≠ d.id) :
      Done st ctx d (.rotateApiKey id)
        { afterRevoke st id (d.accepts 0) with
          apiKeys := rotated sha256 k d rawKey :: (afterRevoke st id (d.accepts 0)).apiKeys }

/-! ## what the checks found -/

variable {st st' : AuthStore} {ctx : AuthContext} {id msg : String} {body : Json} {d : Draw}
  {k : ApiKeyRecord} {f : AdminFailure} {accepted : Bool} {a answer : Answer} {e : Event}
  {code : ErrorCode} {old : Role} {written : Option AuthStore} {u : User} {α : Type}
  {checked : Checked α}

def requestedRole (body : Json) : Option Role :=
  match body.valueStr "role" "" with
  | .ok roleStr => roleFromString roleStr
  | .error _ => none

lemma requestedRole_getD {roleStr : String}
    (h : body.valueStr "role" (roleToString old) = .ok roleStr) :
    (roleFromString roleStr).getD old = (requestedRole body).getD old := by
  unfold requestedRole
  unfold valueStr at h ⊢
  cases body with
  | obj l =>
    dsimp only at h ⊢
    split at h
    · next e =>
      cases h
      rw [roleFromString_roleToString]
      rfl
    · next e => cases h; rfl
    · cases h
  | _ => cases h

lemma newUser_spec (h : newUser st ctx body d = .ok u) :
    u.id = d.id ∧ u.role = (requestedRole body).getD .viewer := by
  simp only [newUser, bind_ok, field_ok, ensure_ok, found_ok] at h
  obtain ⟨_, -, -, -, _, -, -, -, _, -, _, hstr, role, hrole, -, -, -, -, h⟩ := h
  cases h
  refine ⟨rfl, ?_⟩
  rw [← requestedRole_getD hstr, hrole]
  rfl

lemma changedRole_ok {r : Role} (h : changedRole ctx body old = .ok r) :
    requestedRole body = some r ∨ requestedRole body = none ∧ r = old := by
  unfold changedRole at h
  unfold requestedRole
  split at h
  · simp only [bind_ok, field_ok, ensure_ok, found_ok] at h
    obtain ⟨roleStr, hstr, role, hrole, -, -, h⟩ := h
    cases h
    rw [hstr]
    exact .inl hrole
  · next hno =>
    cases h
    refine .inr ⟨?_, rfl⟩
    cases body with
    | obj l =>
      have hnone : l.lookup "role" = none := by
        exact Option.not_isSome_iff_eq_none.1 hno
      simp only [valueStr, hnone]
      decide
    | _ => rfl

lemma changedUser_spec {u' : User} (h : changedUser st ctx id body = .ok u') :
    ∃ u, st.getUser id = some u ∧ authorize ctx .tenantAdmin u.tenantId
      ∧ changedRole ctx body u.role = .ok u'.role ∧ u'.id = u.id ∧ u'.tenantId = u.tenantId := by
  simp only [changedUser, bind_ok, found_ok, ensure_ok] at h
  obtain ⟨u, hu, -, hauth, _, -, role, hrole, _, -, h⟩ := h
  cases h
  exact ⟨u, hu, hauth, hrole, rfl, rfl⟩

lemma deletableUser_ok :
    deletableUser st ctx id = .ok u ↔
      st.getUser id = some u ∧ authorize ctx .tenantAdmin u.tenantId :=
  checked_ok.trans (and_congr_left' found_ok)

lemma newApiKey_spec {rawKey : String} (h : newApiKey sha256 st ctx body d = .ok (k, rawKey)) :
    ∃ user, body.valueStr "user_id" "" = .ok k.userId ∧ st.getUser k.userId = some user
      ∧ authorize ctx .tenantAdmin user.tenantId
      ∧ k.role = (requestedRole body).getD user.role := by
  simp only [newApiKey, bind_ok, field_ok, ensure_ok, found_ok] at h
  obtain ⟨userId, hid, -, -, user, hu, -, hauth, _, -, _, -, _, hrole, -, -, _, -, h⟩ := h
  cases h
  exact ⟨user, hid, hu, hauth, requestedRole_getD hrole⟩

lemma findKey_some (h : findKey st d id = some k) : k ∈ st.apiKeys ∧ k.id = id := by
  have hid := find?_some h
  have hlisted := (mem_filter.1 (mem_of_mem_drop (mem_of_mem_take (mem_of_find?_eq_some h)))).1
  exact ⟨(Iteration.perm _ _).mem_iff.1 hlisted, of_decide_eq_true hid⟩

lemma revocableKey_ok :
    revocableKey st ctx id d = .ok k ↔
      findKey st d id = some k ∧ authorize ctx .tenantAdmin k.tenantId :=
  checked_ok.trans (and_congr_left' found_ok)

lemma rotatableKey_ok :
    rotatableKey st ctx id d = .ok k ↔
      findKey st d id = some k ∧ authorize ctx .tenantAdmin k.tenantId ∧ canGrantRole ctx k.role :=
  checked_ok.trans ((and_congr_left' revocableKey_ok).trans and_assoc)

/-! ## what a call does -/

lemma afterRevoke_users (st : AuthStore) (id : String) (accepted : Bool) :
    (afterRevoke st id accepted).users = st.users := by
  unfold afterRevoke AuthStore.revokeApiKey
  split
  · split <;> rfl
  · rfl

lemma afterRevoke_tenants (st : AuthStore) (id : String) (accepted : Bool) :
    (afterRevoke st id accepted).tenants = st.tenants := by
  unfold afterRevoke AuthStore.revokeApiKey
  split
  · split <;> rfl
  · rfl

lemma afterRevoke_true (st : AuthStore) (id : String) :
    (afterRevoke st id true).apiKeys =
      st.apiKeys.map (fun k => if k.id = id then { k with status := "revoked" } else k) := by
  unfold afterRevoke AuthStore.revokeApiKey
  rw [if_pos rfl]
  split
  · rfl
  · next h =>
    have hkept : ∀ k ∈ st.apiKeys, (if k.id = id then { k with status := "revoked" } else k) = k :=
      fun k hk => if_neg fun e => h (any_eq_true.2 ⟨k, hk, decide_eq_true e⟩)
    exact ((map_congr_left hkept).trans (map_id' _)).symm

lemma mem_afterRevoke {k' : ApiKeyRecord} (h : k' ∈ (afterRevoke st id accepted).apiKeys) :
    ∃ k ∈ st.apiKeys, k'.id = k.id ∧ k'.userId = k.userId ∧ k'.tenantId = k.tenantId
      ∧ k'.role = k.role := by
  cases accepted with
  | false => exact ⟨k', h, rfl, rfl, rfl, rfl⟩
  | true =>
    rw [afterRevoke_true] at h
    obtain ⟨k, hk, rfl⟩ := mem_map.1 h
    refine ⟨k, hk, ?_⟩
    split <;> exact ⟨rfl, rfl, rfl, rfl⟩

lemma afterRevoke_ids (st : AuthStore) (id : String) (accepted : Bool) :
    (afterRevoke st id accepted).apiKeys.map (·.id) = st.apiKeys.map (·.id) := by
  cases accepted with
  | false => rfl
  | true =>
    rw [afterRevoke_true, map_map]
    apply map_congr_left
    intro k _
    show (if k.id = id then { k with status := "revoked" } else k).id = k.id
    split <;> rfl

variable {sha256}

lemma attempt_ok {k : α → AuthStore × AdminResult} (h : attempt st checked k = (st', .ok a)) :
    ∃ x, checked = .ok x ∧ k x = (st', .ok a) := by
  cases checked with
  | error e => cases h
  | ok x => exact ⟨x, rfl, h⟩

lemma commit_ok (h : commit st accepted written answer msg code = (st', .ok a)) :
    written = some st' := by
  cases accepted with
  | false => cases h
  | true =>
    cases written with
    | none => cases h
    | some st'' => cases h; rfl

lemma perform_done (h : perform sha256 st e = (st', .ok a)) :
    Done sha256 st e.actor e.draw e.call st' := by
  obtain ⟨ctx, call, d⟩ := e
  cases call with
  | createTenant body =>
    obtain ⟨t, -, hcommit⟩ := attempt_ok h
    have hw := commit_ok hcommit
    unfold AuthStore.insertTenant at hw
    split at hw <;> cases hw
    exact .createTenant
  | updateTenant id body =>
    obtain ⟨t, -, hcommit⟩ := attempt_ok h
    have hw := commit_ok hcommit
    unfold AuthStore.updateTenant at hw
    split at hw <;> cases hw
    exact .updateTenant
  | deleteTenant id =>
    obtain ⟨-, -, hcommit⟩ := attempt_ok h
    have hw := commit_ok hcommit
    unfold AuthStore.deleteTenant at hw
    split at hw <;> cases hw
    exact .deleteTenant
  | createUser body =>
    obtain ⟨u, hnew, hcommit⟩ := attempt_ok h
    have hw := commit_ok hcommit
    unfold AuthStore.insertUser at hw
    split at hw
    · cases hw
    · next hfresh =>
      split at hw <;> cases hw
      exact .createUser hnew (by simpa using hfresh)
  | updateUser id body =>
    obtain ⟨u, hchanged, hcommit⟩ := attempt_ok h
    have hw := commit_ok hcommit
    unfold AuthStore.updateUser at hw
    split at hw <;> cases hw
    exact .updateUser hchanged
  | deleteUser id =>
    obtain ⟨u, hu, hcommit⟩ := attempt_ok h
    have hw := commit_ok hcommit
    unfold AuthStore.deleteUser at hw
    split at hw <;> cases hw
    exact .deleteUser hu
  | createApiKey body =>
    obtain ⟨⟨k, rawKey⟩, hnew, hcommit⟩ := attempt_ok h
    obtain ⟨hfresh, rfl⟩ := AuthStore.insertApiKey_some.1 (commit_ok hcommit)
    exact .createApiKey hnew hfresh
  | revokeApiKey id =>
    obtain ⟨k, hk, hcommit⟩ := attempt_ok h
    have hst : afterRevoke st id true = st' := by
      unfold afterRevoke
      rw [if_pos rfl, commit_ok hcommit]
      rfl
    exact hst ▸ .revokeApiKey hk
  | rotateApiKey id =>
    obtain ⟨k, hk, hrest⟩ := attempt_ok h
    obtain ⟨rawKey, -, hcommit⟩ := attempt_ok hrest
    obtain ⟨hfresh, rfl⟩ := AuthStore.insertApiKey_some.1 (commit_ok hcommit)
    exact .rotateApiKey hk hfresh

lemma attempt_error {k : α → AuthStore × AdminResult}
    (hk : ∀ a, k a = (st', .error f) → st' = st) (h : attempt st checked k = (st', .error f)) :
    st' = st := by
  cases checked with
  | error e => cases h; rfl
  | ok a => exact hk a h

lemma commit_error (h : commit st accepted written answer msg code = (st', .error f)) :
    st' = st := by
  unfold commit at h
  split at h <;> cases h
  rfl

/-- a call that fails leaves the store alone, but for the first write of a rotation -/
lemma perform_failed (h : perform sha256 st e = (st', .error f)) :
    st' = st ∨ ∃ id, e.call = .rotateApiKey id ∧ st' = afterRevoke st id (e.draw.accepts 0) := by
  obtain ⟨ctx, call, d⟩ := e
  cases call with
  | rotateApiKey id =>
    change attempt st (rotatableKey st ctx id d) _ = _ at h
    cases hk : rotatableKey st ctx id d with
    | error e =>
      rw [hk] at h
      cases h
      exact .inl rfl
    | ok k =>
      rw [hk] at h
      exact .inr ⟨id, rfl, attempt_error (fun _ => commit_error) h⟩
  | createTenant | updateTenant | deleteTenant =>
    exact .inl (attempt_error (fun _ => commit_error) h)
  | createUser | updateUser | deleteUser | createApiKey =>
    exact .inl (attempt_error (fun _ => commit_error) h)
  | revokeApiKey => exact .inl (attempt_error (fun _ => commit_error) h)

lemma iamStep_cases (sha256 : String → String) (st : AuthStore) (e : Event) :
    (succeeds sha256 st e ∧ Done sha256 st e.actor e.draw e.call (iamStep sha256 st e))
      ∨ succeeds sha256 st e = false ∧ ∃ id accepted, iamStep sha256 st e = st
        ∨ e.call = .rotateApiKey id ∧ iamStep sha256 st e = afterRevoke st id accepted := by
  unfold succeeds iamStep
  cases h : perform sha256 st e with
  | mk st' r =>
    cases r with
    | ok a => exact .inl ⟨rfl, perform_done h⟩
    | error f =>
      rcases perform_failed h with hst | ⟨id, hcall, hst⟩
      · exact .inr ⟨rfl, "", true, .inl hst⟩
      · exact .inr ⟨rfl, id, _, .inr ⟨hcall, hst⟩⟩

lemma iamStep_keyed (h : st.Keyed) (e : Event) : (iamStep sha256 st e).Keyed := by
  have hrevoked : ∀ id accepted, ((afterRevoke st id accepted).apiKeys.map (·.id)).Nodup := by
    intro id accepted
    rw [afterRevoke_ids]
    exact h
  rcases iamStep_cases sha256 st e with ⟨-, hdone⟩ | ⟨-, id, accepted, hst | ⟨-, hst⟩⟩
  · generalize iamStep sha256 st e = st' at hdone
    generalize e.call = call at hdone
    cases hdone with
    | createApiKey _ hfresh =>
      refine nodup_cons.2 ⟨?_, h⟩
      simpa using hfresh
    | rotateApiKey _ hfresh =>
      refine nodup_cons.2 ⟨?_, hrevoked _ _⟩
      simpa [rotated] using hfresh
    | revokeApiKey => exact hrevoked _ _
    | _ => exact h
  · rw [hst]
    exact h
  · rw [hst]
    exact hrevoked _ _

end

end Iam

end AegisGate
