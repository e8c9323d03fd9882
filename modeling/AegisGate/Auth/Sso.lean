import Mathlib.Data.List.Sort
import AegisGate.Auth.Models
import AegisGate.Core.Json
import AegisGate.Lib.Run

/-!
# Single sign-on: identity mapping and sessions

`src/auth/identity_mapper.cpp`, `SessionManager::createSession` and
`AdminController::handleSsoCallback`, over the identity part of `MemoryPersistentStore`.

* `mapIdentity`  an external identity to a user, provisioning one where it may;
* `handleSsoCallback`  one callback: provider, claims, identity, session;
* `Outcome.Bound`  the mapped user and the session belong to the provider's tenant;
* `Separated`  no tenant can provision identities that another one looks up.

Reading JSON text is the parameter `parse` (`none` is a discarded value); what the identity
provider returns for a callback, the generated ids and the clock are part of the callback.
-/

namespace AegisGate
namespace Sso

open List Json

/-! ## the store -/

structure IdentityStore where
  users : List User := []
  identityMappings : List IdentityMapping := []
  sessions : List Session := []

open IdentityStore

namespace IdentityStore

variable (st : IdentityStore)

def getUser (id : String) : Option User :=
  st.users.find? (fun u => decide (u.id = id))

def insertUser (u : User) : Option IdentityStore :=
  if st.users.any (fun v => decide (v.id = u.id)) then none
  else if st.users.any (fun v => decide (v.tenantId = u.tenantId ∧ v.username = u.username)) then none
  else some { st with users := u :: st.users }

def getIdentityMapping (externalSubject externalIssuer : String) : Option IdentityMapping :=
  st.identityMappings.find? (fun m =>
    decide (m.externalSubject = externalSubject ∧ m.externalIssuer = externalIssuer))

def insertIdentityMapping (m : IdentityMapping) : Option IdentityStore :=
  if st.identityMappings.any (fun n => decide (n.id = m.id)) then none
  else some { st with identityMappings := m :: st.identityMappings }

def updateIdentityMappingLastLogin (id ts : String) : IdentityStore :=
  { st with
    identityMappings := st.identityMappings.map (fun m =>
      if m.id = id then { m with lastLoginAt := ts } else m) }

def insertSession (s : Session) : Option IdentityStore :=
  if st.sessions.any (fun t => decide (t.id = s.id)) then none
  else some { st with sessions := s :: st.sessions }

def deleteSession (id : String) : IdentityStore :=
  { st with sessions := st.sessions.filter (fun s => decide (s.id ≠ id)) }

end IdentityStore

def getSsoProviderByTenant (providers : List SsoProvider) (tenantId : String) :
    Option SsoProvider :=
  providers.find? (fun p => decide (p.tenantId = tenantId) && p.enabled)

/-! ## claims -/

def extractClaim (claims claimMapping : Json) (field : String) : Except TypeError String := do
  let key ← claimMapping.valueStr field ""
  if key = "" then pure "" else claims.valueStr key ""

def stringElems (j : Json) : List String :=
  match j with
  | .arr l => l.filterMap fun
    | .str s => some s
    | _ => none
  | _ => []

def extractGroups (claims claimMapping : Json) : Except TypeError (List String) := do
  let key ← claimMapping.valueStr "groups" "groups"
  pure (((claims.find? key).map stringElems).getD [])

def raiseRole (groupRoleMapping : Json) (highest : Role) (group : String) :
    Except TypeError Role :=
  match groupRoleMapping.find? group with
  | none => .ok highest
  | some (.str s) =>
    match roleFromString s with
    | some r => .ok (if highest.rank < r.rank then r else highest)
    | none => .ok highest
  | some _ => .error ⟨302⟩

def applyGroupRoleMapping (groups : List String) (groupRoleMapping : Json) (defaultRole : String) :
    Except TypeError Role :=
  groups.foldlM (raiseRole groupRoleMapping) ((roleFromString defaultRole).getD .viewer)

section
variable (parse : String → Option Json)

/-- a configured mapping; an empty or unreadable text is the empty object -/
def readMapping (text : String) : Json :=
  if text = "" then .obj [] else (parse text).getD (.obj [])

/-! ## mapping an identity -/

structure MappedIdentity where
  user : User
  mapping : IdentityMapping
  isNew : Bool
  deriving DecidableEq

/-- ids and time drawn during one callback -/
structure Draw where
  userId : String
  mappingId : String
  sessionId : String
  nowIso : String
  expiresIso : String

/-- the branch of `mapIdentity` for an identity that has a row -/
def existingIdentity (st : IdentityStore) (existing : IdentityMapping) (d : Draw) :
    IdentityStore × Option MappedIdentity :=
  let st := st.updateIdentityMappingLastLogin existing.id d.nowIso
  match st.getUser existing.userId with
  | none => (st, none)
  | some user =>
    if user.status ≠ "active" then (st, none)
    else (st, some ⟨user, { existing with lastLoginAt := d.nowIso }, false⟩)

/-- just-in-time provisioning: a user, then its mapping -/
def provision (st : IdentityStore) (provider : SsoProvider) (sub email displayName : String)
    (role : Role) (d : Draw) : IdentityStore × Option MappedIdentity :=
  let username := if email = "" then sub else email
  let user : User :=
    { id := d.userId, tenantId := provider.tenantId, username,
      displayName := if displayName = "" then username else displayName, role }
  match st.insertUser user with
  | none => (st, none)
  | some st' =>
    let mapping : IdentityMapping :=
      { id := d.mappingId, tenantId := provider.tenantId, externalSubject := sub,
        externalIssuer := provider.issuerUrl, userId := user.id, email,
        lastLoginAt := d.nowIso, createdAt := d.nowIso }
    match st'.insertIdentityMapping mapping with
    | none => (st', none)
    | some st'' => (st'', some ⟨user, mapping, true⟩)

def mapIdentity (st : IdentityStore) (claims : Json) (provider : SsoProvider) (d : Draw) :
    Except TypeError (IdentityStore × Option MappedIdentity) := do
  let sub ← claims.valueStr "sub" ""
  if sub = "" then pure (st, none)
  else
    let claimMapping := readMapping parse provider.claimMappingJson
    let email ← extractClaim claims claimMapping "email"
    let _ ← extractClaim claims claimMapping "username"
    let displayName ← extractClaim claims claimMapping "display_name"
    match st.getIdentityMapping sub provider.issuerUrl with
    | some existing => pure (existingIdentity st existing d)
    | none =>
      if provider.jitProvisioning then
        let groups ← extractGroups claims claimMapping
        let role ← applyGroupRoleMapping groups
          (readMapping parse provider.groupRoleMappingJson) provider.defaultRole
        pure (provision st provider sub email displayName role d)
      else pure (st, none)

/-! ## sessions and callbacks -/

variable (maxConcurrent : Int)

/-- the oldest sessions of a user that has reached the limit go -/
def enforceLimit (st : IdentityStore) (userId : String) : IdentityStore :=
  let own := st.sessions.filter (fun s => decide (s.userId = userId))
  if maxConcurrent ≤ 0 then st
  else if (own.length : Int) < maxConcurrent then st
  else
    let oldest := own.insertionSort (fun a b => a.createdAt ≤ b.createdAt)
    (oldest.take ((own.length : Int) - maxConcurrent + 1).toNat).foldl
      (fun st s => st.deleteSession s.id) st

def createSession (st : IdentityStore)
    (userId tenantId authMethod ipAddress userAgent : String) (d : Draw) :
    IdentityStore × Option Session :=
  let st := enforceLimit maxConcurrent st userId
  let s : Session :=
    { id := d.sessionId, userId, tenantId, authMethod,
      ipAddress, userAgent, createdAt := d.nowIso,
      lastActiveAt := d.nowIso, expiresAt := d.expiresIso }
  match st.insertSession s with
  | none => (st, none)
  | some st' => (st', some s)

/-- a request to the callback endpoint; `claims` is the outcome of discovery, code exchange and
`verifyIdToken`, `none` on failure -/
structure Callback where
  tenantId : String
  claims : Option Json
  nonce : String
  ipAddress : String
  userAgent : String
  draw : Draw

structure Outcome where
  provider : Option SsoProvider := none
  mapped : Option MappedIdentity := none
  session : Option Session := none
  error : String := ""

/-- `nonce` of the claims against the one of the login; a nonce that is no string throws -/
def nonceMatches (claims : Json) (nonce : String) : Except TypeError Bool :=
  match claims.find? "nonce" with
  | none => .ok true
  | some (.str s) => .ok (s == nonce)
  | some _ => .error ⟨302⟩

/-- the callback after its provider is known and its claims are verified -/
def completeLogin (st : IdentityStore)
    (provider : SsoProvider) (claims : Json) (cb : Callback) : IdentityStore × Outcome :=
  match mapIdentity parse st claims provider cb.draw with
  | .error _ => (st, { provider := some provider })
  | .ok (st, none) => (st, { provider := some provider, error := "Identity mapping failed" })
  | .ok (st, some mi) =>
    match createSession maxConcurrent st mi.user.id provider.tenantId "sso" cb.ipAddress
        cb.userAgent cb.draw with
    | (st, none) =>
      (st, { provider := some provider, mapped := some mi, error := "Session creation failed" })
    | (st, some s) => (st, { provider := some provider, mapped := some mi, session := some s })

variable (providers : List SsoProvider) (maxConcurrent : Int) (st : IdentityStore)

def handleSsoCallback (cb : Callback) : IdentityStore × Outcome :=
  match getSsoProviderByTenant providers cb.tenantId with
  | none => (st, { error := "No SSO provider configured for tenant" })
  | some provider =>
    match cb.claims with
    | none => (st, { provider := some provider, error := "ID token verification failed" })
    | some claims =>
      match nonceMatches claims cb.nonce with
      | .error _ => (st, { provider := some provider })
      | .ok false => (st, { provider := some provider, error := "Nonce mismatch" })
      | .ok true => completeLogin parse maxConcurrent st provider claims cb

/-! ## binding -/

def Outcome.Bound (o : Outcome) : Prop :=
  ∀ p mi, o.provider = some p → o.mapped = some mi →
    mi.user.tenantId = p.tenantId ∧ ∀ s, o.session = some s → s.tenantId = mi.user.tenantId

/-- the provider a callback of its own tenant gets -/
def Configured (p : SsoProvider) : Prop :=
  getSsoProviderByTenant providers p.tenantId = some p

/-- the claim mapping has readable entries for the three attributes -/
def readsClaims (p : SsoProvider) : Bool :=
  ["email", "username", "display_name"].all (fun field =>
    ((readMapping parse p.claimMappingJson).valueStr field "").isOk)

/-- … and for the groups, which only provisioning reads -/
def readsGroups (p : SsoProvider) : Bool :=
  ((readMapping parse p.claimMappingJson).valueStr "groups" "groups").isOk

structure Provisions (parse : String → Option Json) (providers : List SsoProvider)
    (p : SsoProvider) : Prop where
  configured : Configured providers p
  jit : p.jitProvisioning
  claims : readsClaims parse p
  groups : readsGroups parse p

/-- a provider that provisions users shares its issuer with no other tenant's provider -/
def Separated : Prop :=
  ∀ p q, Provisions parse providers p → Configured providers q → readsClaims parse q →
    p.issuerUrl = q.issuerUrl → p.tenantId = q.tenantId

/-! ## what the operations change -/

lemma foldl_deleteSession (l : List Session) (st : IdentityStore) :
    ∃ sessions, l.foldl (fun st s => st.deleteSession s.id) st = { st with sessions } := by
  induction l generalizing st with
  | nil => exact ⟨st.sessions, rfl⟩
  | cons s l ih => exact ih (st.deleteSession s.id)

lemma enforceLimit_sessions (userId : String) :
    ∃ sessions, enforceLimit maxConcurrent st userId = { st with sessions } := by
  unfold enforceLimit
  dsimp only
  split
  · exact ⟨st.sessions, rfl⟩
  split
  · exact ⟨st.sessions, rfl⟩
  · exact foldl_deleteSession _ st

/-- only the sessions change, and a session that is opened is the tenant's -/
lemma createSession_spec (userId tenantId authMethod ipAddress userAgent : String) (d : Draw) :
    ∃ sessions r, createSession maxConcurrent st userId tenantId authMethod ipAddress userAgent d
        = ({ st with sessions }, r) ∧ ∀ s, r = some s → s.tenantId = tenantId := by
  obtain ⟨sessions, hs⟩ := enforceLimit_sessions maxConcurrent st userId
  unfold createSession insertSession
  rw [hs]
  dsimp only
  split
  · exact ⟨sessions, none, rfl, fun s h => by cases h⟩
  · next h =>
    split at h
    · cases h
    · cases h
      refine ⟨_, _, rfl, fun s hr => ?_⟩
      cases hr
      rfl

lemma extractClaim_isOk {claims claimMapping : Json} {field v : String}
    (h : extractClaim claims claimMapping field = .ok v) :
    (claimMapping.valueStr field "").isOk := by
  obtain ⟨key, hk, -⟩ := bind_eq_ok h
  rw [hk]
  rfl

lemma extractGroups_isOk {claims claimMapping : Json} {gs : List String}
    (h : extractGroups claims claimMapping = .ok gs) :
    (claimMapping.valueStr "groups" "groups").isOk := by
  obtain ⟨key, hk, -⟩ := bind_eq_ok h
  rw [hk]
  rfl

/-- what a call of `mapIdentity` that returns can have done -/
lemma mapIdentity_cases {parse : String → Option Json} {st st' : IdentityStore} {claims : Json}
    {p : SsoProvider} {d : Draw} {r : Option MappedIdentity}
    (h : mapIdentity parse st claims p d = .ok (st', r)) : (st' = st ∧ r = none)
      ∨ (readsClaims parse p ∧ ∃ sub existing, st.getIdentityMapping sub p.issuerUrl = some existing
            ∧ (st', r) = existingIdentity st existing d)
      ∨ (readsClaims parse p ∧ readsGroups parse p ∧ p.jitProvisioning
          ∧ ∃ sub email displayName role,
            (st', r) = provision st p sub email displayName role d) := by
  obtain ⟨sub, -, h⟩ := bind_eq_ok h
  split at h
  · cases h
    exact .inl ⟨rfl, rfl⟩
  obtain ⟨email, he, h⟩ := bind_eq_ok h
  obtain ⟨username, hu, h⟩ := bind_eq_ok h
  obtain ⟨displayName, hd, h⟩ := bind_eq_ok h
  have hreads : readsClaims parse p := by
    simp [readsClaims, extractClaim_isOk he, extractClaim_isOk hu, extractClaim_isOk hd]
  split at h
  · next existing hex =>
    exact .inr (.inl ⟨hreads, sub, existing, hex, (Except.ok.inj h).symm⟩)
  · split at h
    · next hj =>
      obtain ⟨groups, hg, h⟩ := bind_eq_ok h
      obtain ⟨role, -, h⟩ := bind_eq_ok h
      exact .inr (.inr ⟨hreads, extractGroups_isOk hg, hj, sub, email, displayName, role,
        (Except.ok.inj h).symm⟩)
    · cases h
      exact .inl ⟨rfl, rfl⟩

/-! ## rows keep their tenant -/

/-- the row was provisioned for the tenant its user belongs to -/
def RowOk (m : IdentityMapping) : Prop :=
  ∃ p u, Provisions parse providers p ∧ m.externalIssuer = p.issuerUrl
    ∧ st.getUser m.userId = some u ∧ u.tenantId = p.tenantId

def Inv : Prop :=
  ∀ m ∈ st.identityMappings, RowOk parse providers st m

end

section
variable {parse : String → Option Json} {providers : List SsoProvider} {st st' : IdentityStore}
  {q p : SsoProvider}

lemma Inv.updateLastLogin (h : Inv parse providers st) (id ts : String) :
    Inv parse providers (st.updateIdentityMappingLastLogin id ts) := by
  intro m hmem
  obtain ⟨m0, hm0, rfl⟩ := mem_map.1 hmem
  obtain ⟨p, u, hp, hi, hget, ht⟩ := h m0 hm0
  refine ⟨p, u, hp, ?_, ?_, ht⟩
  · split
    · exact hi
    · exact hi
  · split
    · exact hget
    · exact hget

lemma getUser_insertUser {u : User} (h : st.insertUser u = some st') :
    st'.identityMappings = st.identityMappings ∧ st'.getUser u.id = some u
      ∧ ∀ id v, st.getUser id = some v → st'.getUser id = some v := by
  unfold insertUser at h
  split at h
  · cases h
  · next hid =>
    split at h
    · cases h
    · cases h
      refine ⟨rfl, by simp [getUser], fun id v hv => ?_⟩
      have hne : u.id ≠ id := by
        rintro rfl
        have hmem := mem_of_find?_eq_some hv
        have hvid : v.id = u.id := by simpa using find?_some hv
        exact hid (any_eq_true.2 ⟨v, hmem, by simpa using hvid⟩)
      unfold getUser
      rw [find?_cons_of_neg (by simpa using hne)]
      exact hv

lemma existingIdentity_spec (hI : Inv parse providers st) {sub : String}
    {existing : IdentityMapping} (d : Draw)
    (hex : st.getIdentityMapping sub q.issuerUrl = some existing) :
    Inv parse providers (existingIdentity st existing d).1
      ∧ ∀ mi, (existingIdentity st existing d).2 = some mi →
          ∃ p, Provisions parse providers p ∧ p.issuerUrl = q.issuerUrl
            ∧ mi.user.tenantId = p.tenantId := by
  have hmem := mem_of_find?_eq_some hex
  have hissuer : existing.externalIssuer = q.issuerUrl := by
    have := find?_some hex
    exact (of_decide_eq_true this).2
  obtain ⟨p, u, hp, hi, hget, ht⟩ := hI existing hmem
  have hget' : (st.updateIdentityMappingLastLogin existing.id d.nowIso).getUser existing.userId
      = some u := hget
  have hI' := hI.updateLastLogin existing.id d.nowIso
  unfold existingIdentity
  simp only [hget']
  split
  · exact ⟨hI', fun mi h => by cases h⟩
  · refine ⟨hI', fun mi h => ?_⟩
    cases h
    exact ⟨p, hp, hi.symm.trans hissuer, ht⟩

lemma provision_spec (hI : Inv parse providers st) (hp : Provisions parse providers p)
    (sub email displayName : String) (role : Role) (d : Draw) :
    Inv parse providers (provision st p sub email displayName role d).1
      ∧ ∀ mi, (provision st p sub email displayName role d).2 = some mi →
          mi.user.tenantId = p.tenantId := by
  unfold provision
  dsimp only
  split
  · exact ⟨hI, fun mi h => by cases h⟩
  · next st' hins =>
    obtain ⟨hmap, hnew, hold⟩ := getUser_insertUser hins
    have hI' : Inv parse providers st' := by
      intro m hm
      rw [hmap] at hm
      obtain ⟨p', u, hp', hi, hget, ht⟩ := hI m hm
      exact ⟨p', u, hp', hi, hold _ _ hget, ht⟩
    unfold insertIdentityMapping
    split
    · next h =>
      split at h
      · exact ⟨hI', fun mi h => by cases h⟩
      · cases h
    · next h =>
      split at h
      · cases h
      · cases h
        refine ⟨fun m hm => ?_, fun mi h => by cases h; rfl⟩
        rcases mem_cons.1 hm with rfl | hm
        · exact ⟨p, _, hp, rfl, hnew, rfl⟩
        · exact hI' m hm

lemma getSsoProviderByTenant_configured {tenantId : String}
    (h : getSsoProviderByTenant providers tenantId = some p) : Configured providers p := by
  have ht : p.tenantId = tenantId := by
    have := find?_some h
    simp only [Bool.and_eq_true, decide_eq_true_eq] at this
    exact this.1
  rw [Configured, ht]
  exact h

lemma mapIdentity_spec (hsep : Separated parse providers) (hI : Inv parse providers st)
    (hq : Configured providers q) {claims : Json} {d : Draw} {r : Option MappedIdentity}
    (h : mapIdentity parse st claims q d = .ok (st', r)) :
    Inv parse providers st' ∧ ∀ mi, r = some mi → mi.user.tenantId = q.tenantId := by
  rcases mapIdentity_cases h with ⟨rfl, rfl⟩ | ⟨hc, sub, existing, hex, he⟩
    | ⟨hc, hg, hj, sub, email, displayName, role, he⟩
  · exact ⟨hI, fun mi h => by cases h⟩
  · obtain ⟨hI', hmi⟩ := existingIdentity_spec hI d hex
    rw [← he] at hI' hmi
    refine ⟨hI', fun mi hr => ?_⟩
    obtain ⟨p, hp, hissuer, ht⟩ := hmi mi hr
    exact ht.trans (hsep p q hp hq hc hissuer)
  · have hs := provision_spec hI ⟨hq, hj, hc, hg⟩ sub email displayName role d
    rw [← he] at hs
    exact hs

lemma handleSsoCallback_spec (hsep : Separated parse providers) (maxConcurrent : Int)
    (st : IdentityStore) (cb : Callback) (hI : Inv parse providers st) :
    Inv parse providers (handleSsoCallback parse providers maxConcurrent st cb).1
      ∧ (handleSsoCallback parse providers maxConcurrent st cb).2.Bound := by
  unfold handleSsoCallback
  split
  · exact ⟨hI, fun p mi hp => by cases hp⟩
  next provider hprov =>
  have hq := getSsoProviderByTenant_configured hprov
  split
  · exact ⟨hI, fun p mi _ hm => by cases hm⟩
  next claims _ =>
  split
  · exact ⟨hI, fun p mi _ hm => by cases hm⟩
  · exact ⟨hI, fun p mi _ hm => by cases hm⟩
  unfold completeLogin
  split
  · exact ⟨hI, fun p mi _ hm => by cases hm⟩
  · next st' h => exact ⟨(mapIdentity_spec hsep hI hq h).1, fun p mi _ hm => by cases hm⟩
  next st' mi h =>
  obtain ⟨hI', ht⟩ := mapIdentity_spec hsep hI hq h
  obtain ⟨sessions, r, hr, hs⟩ := createSession_spec maxConcurrent st' mi.user.id
    provider.tenantId "sso" cb.ipAddress cb.userAgent cb.draw
  rw [hr]
  cases r with
  | none =>
    refine ⟨hI', fun p mi' hp hmi => ?_⟩
    cases hp
    cases hmi
    exact ⟨ht mi rfl, fun s h => by cases h⟩
  | some s =>
    refine ⟨hI', fun p mi' hp hmi => ?_⟩
    cases hp
    cases hmi
    refine ⟨ht mi rfl, fun s' h => ?_⟩
    cases h
    exact (hs s rfl).trans (ht mi rfl).symm

end

/-! ## logging in through two providers -/

def subjectClaims (sub : String) : Json := .obj [("sub", .str sub)]

def subjectLogin (tenantId sub : String) (d : Draw) : Callback where
  tenantId := tenantId
  claims := some (subjectClaims sub)
  nonce := ""
  ipAddress := ""
  userAgent := ""
  draw := d

section
variable {parse : String → Option Json} {providers : List SsoProvider} {sub : String}
  {claimMapping : Json} {q : SsoProvider}

lemma valueStr_subjectClaims (sub key : String) :
    ∃ v, (subjectClaims sub).valueStr key "" = .ok v := by
  unfold subjectClaims valueStr
  by_cases h : key = "sub"
  · subst h
    exact ⟨sub, rfl⟩
  · have hl : List.lookup key [("sub", str sub)] = none := by
      simp [lookup_cons, beq_eq_false_iff_ne.2 h]
    exact ⟨"", by simp only [hl]⟩

lemma extractClaim_subjectClaims (sub : String) {field : String}
    (h : (claimMapping.valueStr field "").isOk) :
    ∃ v, extractClaim (subjectClaims sub) claimMapping field = .ok v := by
  unfold extractClaim
  cases hk : claimMapping.valueStr field "" with
  | error e =>
    rw [hk] at h
    cases h
  | ok key =>
    by_cases he : key = ""
    · exact ⟨"", by rw [he]; rfl⟩
    · obtain ⟨v, hv⟩ := valueStr_subjectClaims sub key
      refine ⟨v, ?_⟩
      show (if key = "" then _ else _) = _
      rw [if_neg he, hv]

lemma extractGroups_subjectClaims (sub : String)
    (h : (claimMapping.valueStr "groups" "groups").isOk) :
    extractGroups (subjectClaims sub) claimMapping = .ok [] := by
  unfold extractGroups
  cases hk : claimMapping.valueStr "groups" "groups" with
  | error e =>
    rw [hk] at h
    cases h
  | ok key =>
    unfold subjectClaims Json.find?
    by_cases he : key = "sub"
    · subst he
      rfl
    · simp [lookup_cons, beq_eq_false_iff_ne.2 he]

lemma mapIdentity_subjectClaims (st : IdentityStore) (hsub : sub ≠ "")
    (hc : readsClaims parse q) (d : Draw) :
    ∃ email displayName, mapIdentity parse st (subjectClaims sub) q d
      = match st.getIdentityMapping sub q.issuerUrl with
        | some existing => pure (existingIdentity st existing d)
        | none =>
          if q.jitProvisioning then do
            let groups ← extractGroups (subjectClaims sub) (readMapping parse q.claimMappingJson)
            let role ← applyGroupRoleMapping groups
              (readMapping parse q.groupRoleMappingJson) q.defaultRole
            pure (provision st q sub email displayName role d)
          else pure (st, none) := by
  simp only [readsClaims, all_cons, all_nil, Bool.and_true, Bool.and_eq_true] at hc
  obtain ⟨email, he⟩ := extractClaim_subjectClaims sub hc.1
  obtain ⟨username, hu⟩ := extractClaim_subjectClaims sub hc.2.1
  obtain ⟨displayName, hd⟩ := extractClaim_subjectClaims sub hc.2.2
  have hs : (subjectClaims sub).valueStr "sub" "" = .ok sub := rfl
  refine ⟨email, displayName, ?_⟩
  unfold mapIdentity
  show (if sub = "" then _ else _) = _
  rw [if_neg hsub, he, hu, hd]
  rfl

lemma handleSsoCallback_mapped (maxConcurrent : Int) {st st' : IdentityStore}
    (hq : Configured providers q) {d : Draw} {mi : MappedIdentity}
    (h : mapIdentity parse st (subjectClaims sub) q d = .ok (st', some mi)) :
    ∃ sessions o, handleSsoCallback parse providers maxConcurrent st
        (subjectLogin q.tenantId sub d) = ({ st' with sessions }, o)
      ∧ o.provider = some q ∧ o.mapped = some mi := by
  have hprov : getSsoProviderByTenant providers (subjectLogin q.tenantId sub d).tenantId = some q :=
    hq
  obtain ⟨sessions, r, hr, -⟩ :=
    createSession_spec maxConcurrent st' mi.user.id q.tenantId "sso" "" "" d
  have hlogin : handleSsoCallback parse providers maxConcurrent st (subjectLogin q.tenantId sub d)
      = completeLogin parse maxConcurrent st q (subjectClaims sub)
          (subjectLogin q.tenantId sub d) := by
    unfold handleSsoCallback
    rw [hprov]
    rfl
  rw [hlogin]
  simp only [completeLogin, subjectLogin, h, hr]
  cases r with
  | none => exact ⟨sessions, _, rfl, rfl, rfl⟩
  | some s => exact ⟨sessions, _, rfl, rfl, rfl⟩

lemma mapIdentity_first {p : SsoProvider} (hp : Provisions parse providers p) (hsub : sub ≠ "")
    (d : Draw) : ∃ st mi, mapIdentity parse {} (subjectClaims sub) p d = .ok (st, some mi)
      ∧ st.users = [mi.user] ∧ st.identityMappings = [mi.mapping]
      ∧ mi.user.id = mi.mapping.userId ∧ mi.user.tenantId = p.tenantId
      ∧ mi.user.status = "active" ∧ mi.mapping.externalSubject = sub
      ∧ mi.mapping.externalIssuer = p.issuerUrl := by
  obtain ⟨email, displayName, h⟩ := mapIdentity_subjectClaims {} hsub hp.claims d
  rw [extractGroups_subjectClaims sub hp.groups] at h
  have hnone : getIdentityMapping {} sub p.issuerUrl = none := rfl
  simp only [hnone, hp.jit, if_true] at h
  exact ⟨_, _, h, rfl, rfl, rfl, rfl, rfl, rfl, rfl⟩

end

/-- every outcome of every sequence of callbacks over new identities is bound exactly when the
provisioning providers are separated -/
theorem sso_tenant_binding_iff (parse : String → Option Json) (providers : List SsoProvider)
    (maxConcurrent : Int) : (∀ users sessions (callbacks : List Callback),
        ∀ o ∈ Run.trace (handleSsoCallback parse providers maxConcurrent)
            { users, sessions } callbacks, o.Bound) ↔ Separated parse providers := by
  constructor
  · intro h p q hp hq hc hissuer
    let d1 : Draw := ⟨"u1", "m1", "s1", "", ""⟩
    let d2 : Draw := ⟨"u2", "m2", "s2", "", ""⟩
    have hx : "x" ≠ "" := by decide
    obtain ⟨st, mi, hmap, husers, hmaps, hid, ht, hact, hsub, hiss⟩ :=
      mapIdentity_first hp hx d1
    obtain ⟨sessions, o, hlogin, -⟩ := handleSsoCallback_mapped maxConcurrent hp.configured hmap
    have h2 := h [] [] [subjectLogin p.tenantId "x" d1, subjectLogin q.tenantId "x" d2]
      (handleSsoCallback parse providers maxConcurrent
        (handleSsoCallback parse providers maxConcurrent {} (subjectLogin p.tenantId "x" d1)).1
        (subjectLogin q.tenantId "x" d2)).2 (by simp [Run.trace])
    rw [hlogin] at h2
    generalize hst1 : { st with sessions } = st1 at h2
    have hex : st1.getIdentityMapping "x" q.issuerUrl = some mi.mapping := by
      simp [← hst1, getIdentityMapping, hmaps, hsub, hiss, hissuer]
    have hget : st1.getUser mi.mapping.userId = some mi.user := by
      simp [← hst1, getUser, husers, hid]
    obtain ⟨email, displayName, hsecond⟩ :=
      mapIdentity_subjectClaims st1 hx hc d2
    have hget' : (st1.updateIdentityMappingLastLogin mi.mapping.id d2.nowIso).getUser
        mi.mapping.userId = some mi.user := hget
    simp only [hex, existingIdentity, hget', hact, ne_eq, not_true_eq_false, if_false] at hsecond
    obtain ⟨_, _, hlogin', hprov, hmapped⟩ := handleSsoCallback_mapped maxConcurrent hq hsecond
    rw [hlogin'] at h2
    exact ht.symm.trans (h2 q _ hprov hmapped).1
  · intro hsep users sessions callbacks
    refine Run.trace_inv (I := Inv parse providers) ?_ callbacks _ ?_
    · intro st cb hI
      exact handleSsoCallback_spec hsep maxConcurrent st cb hI
    · intro m hm
      cases hm

/-- two tenants behind one identity provider -/
def sharedIssuer : List SsoProvider :=
  [{ id := "p1", tenantId := "t1", issuerUrl := "idp" },
   { id := "p2", tenantId := "t2", issuerUrl := "idp" }]

/-- the same person logs in to the first tenant, then to the second -/
def crossLogins : List Callback :=
  [subjectLogin "t1" "alice" ⟨"u1", "m1", "s1", "", ""⟩,
   subjectLogin "t2" "alice" ⟨"u2", "m2", "s2", "", ""⟩]

/-- the second login is mapped to the first tenant's user, in a session of the second tenant -/
theorem sso_crosses_tenants :
    (Run.trace (handleSsoCallback (fun _ => none) sharedIssuer 5) {} crossLogins).map
        (fun o => (o.provider.map SsoProvider.tenantId,
          o.mapped.map (·.user.tenantId), o.session.map Session.tenantId))
        = [(some "t1", some "t1", some "t1"), (some "t2", some "t1", some "t2")]
      ∧ ¬ ∀ o ∈ Run.trace (handleSsoCallback (fun _ => none) sharedIssuer 5) {} crossLogins,
          o.Bound := by
  refine ⟨by decide, fun h => ?_⟩
  have hb := h _ (mem_cons_of_mem _ mem_cons_self)
  exact absurd (hb _ _ rfl rfl).1 (by decide)

end Sso
end AegisGate
