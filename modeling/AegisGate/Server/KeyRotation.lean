import AegisGate.Server.AdminIam

/-!
# Rotating a key

`AdminIamController::rotateApiKey` revokes the old key, then inserts a new one, and copies neither
the status nor the expiry of the old one.

* `authenticates`  what `AuthService::resolve` asks of a stored key once the hash matched;
* `Preserves`  what a rotation should do to the keys that authenticate;
* `RotationSafe`  the keys, actors and stores for which it does.
-/

namespace AegisGate.Iam

open List

/-! ## keys that authenticate -/

section
variable (svc : AuthService)

def authenticates (k : ApiKeyRecord) : Bool :=
  svc.rbac && (svc.contextOf k).any (!isReservedSystemUser ·.userId)

def live : Set ApiKeyRecord :=
  { k | k ∈ svc.store.apiKeys ∧ authenticates svc k }

/-- the user and the tenant of a key are active, and the user is no reserved one -/
structure OwnerActive (st : AuthStore) (userId tenantId : String) : Prop where
  user : ∃ u, st.getUser userId = some u ∧ u.status = "active"
  tenant : ∃ t, st.getTenant tenantId = some t ∧ t.status = "active"
  allowed : isReservedSystemUser userId = false

lemma authenticates_iff {svc : AuthService} {k : ApiKeyRecord} :
    authenticates svc k ↔ svc.rbac ∧ ¬ (k.status = "revoked" ∨ k.status = "expired")
        ∧ ¬ (k.expiresAt ≠ "" ∧ k.expiresAt < svc.now)
        ∧ OwnerActive svc.store k.userId k.tenantId := by
  unfold authenticates AuthService.contextOf
  rw [Bool.and_eq_true, and_congr_right_iff]
  intro _
  split
  · next h => exact ⟨nofun, fun hf => absurd h hf.1⟩
  next hstatus =>
  split
  · next h => exact ⟨nofun, fun hf => absurd h hf.2.1⟩
  next hexpiry =>
  constructor
  · intro h
    refine ⟨hstatus, hexpiry, ?_⟩
    split at h
    · next u t hu ht =>
      split at h
      · next hactive =>
        exact ⟨⟨u, hu, hactive.1⟩, ⟨t, ht, hactive.2⟩, by simpa using h⟩
      · cases h
    · cases h
  · rintro ⟨-, -, ⟨u, hu, hua⟩, ⟨t, ht, hta⟩, hallowed⟩
    rw [hu, ht]
    simp [hua, hta, hallowed]

/-! ## one rotation -/

/-- a rotation that succeeds replaced an authenticating key by one new one with the same user,
tenant, role and expiry; one that fails left the keys that authenticate -/
def Preserves (ctx : AuthContext) (id : String) (d : Draw) : Prop :=
  match rotateApiKey svc.sha256 svc.store ctx id d with
  | (st, .ok _) =>
    ∃ k ∈ live svc, k.id = id ∧ (∀ k' ∈ live { svc with store := st }, k'.id ≠ id)
      ∧ ∃ new, (∀ k', (k' ∈ live { svc with store := st } ∧ ∀ old ∈ svc.store.apiKeys, old.id ≠ k'.id)
            ↔ k' = new)
          ∧ new.userId = k.userId ∧ new.tenantId = k.tenantId ∧ new.role = k.role
          ∧ new.expiresAt = k.expiresAt
  | (st, .error _) => live { svc with store := st } = live svc

/-- the random bytes are there and the second write goes through -/
def Inserts (d : Draw) : Prop :=
  d.randomBytes.isSome ∧ d.accepts 1 ∧ ∀ k ∈ svc.store.apiKeys, k.id ≠ d.id

/-- for a key the actor may rotate: both writes go through and the key authenticates and never
expires, or the second step fails and there was nothing to lose -/
def RotationSafe (ctx : AuthContext) (id : String) (d : Draw) : Prop :=
  ∀ k, findKey svc.store d id = some k → authorize ctx .tenantAdmin k.tenantId →
    canGrantRole ctx k.role → (Inserts svc d ∧ d.accepts 0 ∧ authenticates svc k ∧ k.expiresAt = "")
        ∨ ¬ Inserts svc d ∧ (d.accepts 0 → authenticates svc k = false)

end

section
variable {svc : AuthService} {ctx : AuthContext} {id : String} {d : Draw} {k k' : ApiKeyRecord}
  {accepted : Bool} {l : List ApiKeyRecord} {rawKey : String}

lemma ownerActive_afterRevoke {userId tenantId : String} :
    OwnerActive { afterRevoke svc.store id accepted with apiKeys := l } userId tenantId ↔
      OwnerActive svc.store userId tenantId := by
  have huser : ∀ i, ({ afterRevoke svc.store id accepted with apiKeys := l } :
      AuthStore).getUser i = svc.store.getUser i := by
    intro i
    show (afterRevoke svc.store id accepted).users.find? _ = _
    rw [afterRevoke_users]
    rfl
  have htenant : ∀ i, ({ afterRevoke svc.store id accepted with apiKeys := l } :
      AuthStore).getTenant i = svc.store.getTenant i := by
    intro i
    show (afterRevoke svc.store id accepted).tenants.find? _ = _
    rw [afterRevoke_tenants]
    rfl
  constructor
  · rintro ⟨hu, ht, ha⟩
    rw [huser] at hu
    rw [htenant] at ht
    exact ⟨hu, ht, ha⟩
  · rintro ⟨hu, ht, ha⟩
    refine ⟨?_, ?_, ha⟩
    · rw [huser]
      exact hu
    · rw [htenant]
      exact ht

lemma authenticates_afterRevoke :
    authenticates { svc with store := { afterRevoke svc.store id accepted with apiKeys := l } } k
      = authenticates svc k := by
  rw [Bool.eq_iff_iff, authenticates_iff, authenticates_iff, ownerActive_afterRevoke]

lemma live_afterRevoke_true :
    (k' ∈ (afterRevoke svc.store id true).apiKeys
        ∧ authenticates { svc with store := { afterRevoke svc.store id true with apiKeys := l } } k'
         )
      ↔ k' ∈ live svc ∧ k'.id ≠ id := by
  rw [authenticates_afterRevoke, afterRevoke_true]
  constructor
  · rintro ⟨hk', hauth⟩
    obtain ⟨k, hk, rfl⟩ := mem_map.1 hk'
    split at hauth
    · exact absurd (.inl rfl) (authenticates_iff.1 hauth).2.1
    · next hne =>
      rw [if_neg hne]
      exact ⟨⟨hk, hauth⟩, hne⟩
  · rintro ⟨⟨hk, hauth⟩, hne⟩
    exact ⟨mem_map.2 ⟨k', hk, if_neg hne⟩, hauth⟩

lemma rotate_inserts (hk : rotatableKey svc.store ctx id d = .ok k) (h : Inserts svc d) :
    ∃ rawKey a, rotateApiKey svc.sha256 svc.store ctx id d =
      ({ afterRevoke svc.store id (d.accepts 0) with
          apiKeys := rotated svc.sha256 k d rawKey
            :: (afterRevoke svc.store id (d.accepts 0)).apiKeys }, .ok a) := by
  obtain ⟨hrand, haccept, hfresh⟩ := h
  obtain ⟨buf, hbuf⟩ := Option.isSome_iff_exists.1 hrand
  obtain ⟨rawKey, hraw⟩ : ∃ rawKey, generateApiKey d = .ok rawKey := by
    unfold generateApiKey
    rw [hbuf]
    exact ⟨_, rfl⟩
  have hinsert := AuthStore.insertApiKey_some.2
    ⟨fun k' hk' => (?_ : k'.id ≠ (rotated svc.sha256 k d rawKey).id),
      (rfl : _ = ({ afterRevoke svc.store id (d.accepts 0) with
        apiKeys := rotated svc.sha256 k d rawKey
          :: (afterRevoke svc.store id (d.accepts 0)).apiKeys } : AuthStore))⟩
  · refine ⟨rawKey, .apiKey (rotated svc.sha256 k d rawKey) rawKey (some id), ?_⟩
    unfold rotateApiKey
    rw [hk]
    rw [hraw]
    show commit _ (d.accepts 1) _ _ _ _ = _
    rw [haccept, hinsert]
    rfl
  · obtain ⟨k0, hk0, hid, -⟩ := mem_afterRevoke hk'
    rw [hid]
    exact hfresh k0 hk0

lemma rotate_fails (hk : rotatableKey svc.store ctx id d = .ok k) (h : ¬ Inserts svc d) :
    ∃ f, rotateApiKey svc.sha256 svc.store ctx id d =
      (afterRevoke svc.store id (d.accepts 0), .error f) := by
  unfold rotateApiKey
  rw [hk]
  unfold generateApiKey
  cases hrand : d.randomBytes with
  | none => exact ⟨_, rfl⟩
  | some buf =>
    show ∃ f, commit _ (d.accepts 1) _ _ _ _ = _
    cases haccept : d.accepts 1 with
    | false => exact ⟨_, rfl⟩
    | true =>
      cases hins : AuthStore.insertApiKey (afterRevoke svc.store id (d.accepts 0)) _ with
      | none => exact ⟨_, rfl⟩
      | some st =>
        have hfresh := (AuthStore.insertApiKey_some.1 hins).1
        have hids := afterRevoke_ids svc.store id (d.accepts 0)
        refine absurd ⟨by rw [hrand]; rfl, haccept, fun k0 hk0 hid => ?_⟩ h
        have hmem : k0.id ∈ (afterRevoke svc.store id (d.accepts 0)).apiKeys.map (·.id) := by
          rw [hids]
          exact mem_map_of_mem hk0
        obtain ⟨k', hk', hid'⟩ := mem_map.1 hmem
        exact hfresh k' hk' (hid'.trans hid)

lemma live_failed_iff (hkeyed : svc.store.Keyed) (hk : k ∈ svc.store.apiKeys) :
    live { svc with store := afterRevoke svc.store k.id (d.accepts 0) } = live svc ↔
      (d.accepts 0 → authenticates svc k = false) := by
  cases haccept : d.accepts 0 with
  | false => exact ⟨nofun, fun _ => rfl⟩
  | true =>
    have hlive : ∀ k', k' ∈ live { svc with store := afterRevoke svc.store k.id true } ↔
        k' ∈ live svc ∧ k'.id ≠ k.id := fun k' => live_afterRevoke_true
    constructor
    · intro heq _
      by_contra hauth
      have hmem : k ∈ live svc := ⟨hk, by simpa using hauth⟩
      rw [← heq, hlive] at hmem
      exact hmem.2 rfl
    · intro hdead
      ext k'
      rw [hlive]
      refine ⟨And.left, fun h => ⟨h, fun hid => ?_⟩⟩
      obtain rfl := hkeyed.eq h.1 hk hid
      rw [h.2] at hdead
      exact absurd (hdead rfl) (by decide)

def afterRotation (svc : AuthService) (id : String) (accepted : Bool) (new : ApiKeyRecord) :
    AuthService :=
  { svc with
    store := { afterRevoke svc.store id accepted with
      apiKeys := new :: (afterRevoke svc.store id accepted).apiKeys } }

lemma mem_live_afterRotation {new : ApiKeyRecord} :
    k' ∈ live (afterRotation svc id accepted new) ↔ (k' = new ∧ authenticates svc new)
        ∨ k' ∈ (afterRevoke svc.store id accepted).apiKeys ∧ authenticates svc k' := by
  show (k' ∈ new :: (afterRevoke svc.store id accepted).apiKeys
    ∧ authenticates (afterRotation svc id accepted new) k') ↔ _
  rw [afterRotation, authenticates_afterRevoke, mem_cons]
  constructor
  · rintro ⟨rfl | hk', hauth⟩
    · exact .inl ⟨rfl, hauth⟩
    · exact .inr ⟨hk', hauth⟩
  · rintro (⟨rfl, hauth⟩ | ⟨hk', hauth⟩)
    · exact ⟨.inl rfl, hauth⟩
    · exact ⟨.inr hk', hauth⟩

lemma authenticates_rotated (h : authenticates svc k) :
    authenticates svc (rotated svc.sha256 k d rawKey) := by
  obtain ⟨hrbac, -, -, howner⟩ := authenticates_iff.1 h
  refine authenticates_iff.2 ⟨hrbac, ?_, ?_, howner⟩
  · show ¬ ("active" = "revoked" ∨ "active" = "expired")
    decide
  · exact fun h => h.1 rfl

lemma preserved_of_inserted (hk : k ∈ svc.store.apiKeys)
    (hfresh : ∀ k ∈ svc.store.apiKeys, k.id ≠ d.id) (hauth : authenticates svc k)
    (hexpiry : k.expiresAt = "") : ∃ k0 ∈ live svc, k0.id = k.id
      ∧ (∀ k' ∈ live (afterRotation svc k.id true (rotated svc.sha256 k d rawKey)), k'.id ≠ k.id)
      ∧ ∃ new, (∀ k', (k' ∈ live (afterRotation svc k.id true (rotated svc.sha256 k d rawKey))
            ∧ ∀ old ∈ svc.store.apiKeys, old.id ≠ k'.id) ↔ k' = new)
          ∧ new.userId = k0.userId ∧ new.tenantId = k0.tenantId ∧ new.role = k0.role
          ∧ new.expiresAt = k0.expiresAt := by
  refine ⟨k, ⟨hk, hauth⟩, rfl, ?_, rotated svc.sha256 k d rawKey, ?_, rfl, rfl, rfl, hexpiry.symm⟩
  · intro k' hk'
    rcases mem_live_afterRotation.1 hk' with ⟨rfl, -⟩ | ⟨hmem, hlive⟩
    · exact fun e => hfresh k hk e.symm
    · have h := live_afterRevoke_true (l := []).1 ⟨hmem, authenticates_afterRevoke.trans hlive⟩
      exact h.2
  · intro k'
    constructor
    · rintro ⟨hk', hnew⟩
      rcases mem_live_afterRotation.1 hk' with ⟨rfl, -⟩ | ⟨hmem, -⟩
      · rfl
      · obtain ⟨old, hold, hid, -⟩ := mem_afterRevoke hmem
        exact absurd hid.symm (hnew old hold)
    · rintro rfl
      exact ⟨mem_live_afterRotation.2 (.inl ⟨rfl, authenticates_rotated hauth⟩), hfresh⟩

/-- the rotation is exact for the safe cases and for no others -/
theorem rotation_preserves_iff (hkeyed : svc.store.Keyed) :
    Preserves svc ctx id d ↔ RotationSafe svc ctx id d := by
  cases hrot : rotatableKey svc.store ctx id d with
  | error f =>
    have hrefused : rotateApiKey svc.sha256 svc.store ctx id d = (svc.store, .error f) := by
      unfold rotateApiKey
      rw [hrot]
      rfl
    unfold Preserves
    rw [hrefused]
    refine ⟨fun _ k hfind hauth hgrant => ?_, fun _ => rfl⟩
    rw [rotatableKey_ok.2 ⟨hfind, hauth, hgrant⟩] at hrot
    cases hrot
  | ok k =>
    obtain ⟨hfind, hauthz, hgrant⟩ := rotatableKey_ok.1 hrot
    obtain ⟨hk, rfl⟩ := findKey_some hfind
    have hsafe : RotationSafe svc ctx k.id d ↔
        (Inserts svc d ∧ d.accepts 0 ∧ authenticates svc k ∧ k.expiresAt = "")
          ∨ ¬ Inserts svc d ∧ (d.accepts 0 → authenticates svc k = false) := by
      refine ⟨fun h => h k hfind hauthz hgrant, fun h k' hfind' _ _ => ?_⟩
      obtain rfl : k = k' := Option.some.inj (hfind.symm.trans hfind')
      exact h
    rw [hsafe]
    by_cases hins : Inserts svc d
    · obtain ⟨rawKey, a, hresult⟩ := rotate_inserts hrot hins
      unfold Preserves
      rw [hresult]
      constructor
      · rintro ⟨k0, ⟨hk0, hauth⟩, hid, hgone, new, hnew, -, -, -, hexpiry⟩
        obtain rfl := hkeyed.eq hk0 hk hid
        have haccept : d.accepts 0 := by
          by_contra hno
          rw [Bool.not_eq_true] at hno
          have hstill : k0 ∈ live (afterRotation svc k0.id (d.accepts 0)
              (rotated svc.sha256 k0 d rawKey)) := by
            rw [hno]
            exact mem_live_afterRotation.2 (.inr ⟨hk, hauth⟩)
          exact hgone k0 hstill rfl
        have hrotated := (hnew (rotated svc.sha256 k0 d rawKey)).1
          ⟨mem_live_afterRotation.2 (.inl ⟨rfl, authenticates_rotated hauth⟩), hins.2.2⟩
        refine .inl ⟨hins, haccept, hauth, ?_⟩
        rw [← hexpiry, ← hrotated]
        rfl
      · rintro (⟨-, haccept, hauth, hexpiry⟩ | ⟨hno, -⟩)
        · rw [haccept]
          exact preserved_of_inserted hk hins.2.2 hauth hexpiry
        · exact absurd hins hno
    · obtain ⟨f, hresult⟩ := rotate_fails hrot hins
      unfold Preserves
      rw [hresult]
      show live { svc with store := afterRevoke svc.store k.id (d.accepts 0) } = live svc ↔ _
      rw [live_failed_iff hkeyed hk]
      exact ⟨fun h => .inr ⟨hins, h⟩, fun h => h.elim (absurd ·.1 hins) And.right⟩

end

/-! ## a revoked key comes back -/

variable (status : String)

def keyOf : ApiKeyRecord :=
  { id := "k1", userId := "u1", tenantId := "shop", keyPrefix := "sk-AAAAA", keyHash := "h1",
    status }

def keyring : AuthService where
  store :=
    { apiKeys := [keyOf status]
      users := [{ id := "u1", tenantId := "shop", username := "dev", role := .developer }]
      tenants := [{ id := "shop" }] }
  rbac := true
  config := none
  sha256 := id
  now := "2026-01-01T00:00:00Z"

lemma keyring_keyed : (keyring status).store.Keyed :=
  nodup_singleton "k1"

def rotator : AuthContext :=
  { tenantId := "shop", userId := "u9", role := .tenantAdmin, isRbacEnabled := true }

def rotation : Draw where
  id := "k2"
  id_ne := by decide
  randomBytes := some (List.replicate 33 0)
  keyOrder := .stored
  tenantOrder := .stored
  accepts := fun _ => true

lemma keyring_rotatable :
    rotatableKey (keyring status).store rotator "k1" rotation = .ok (keyOf status) := rfl

lemma keyring_inserts : Inserts (keyring status) rotation := by
  refine ⟨rfl, rfl, ?_⟩
  intro k hk
  obtain rfl := mem_singleton.1 hk
  show "k1" ≠ "k2"
  decide

theorem revoked_key_rotates :
    (keyring "revoked").store.Keyed ∧ authenticates (keyring "revoked") (keyOf "revoked") = false
      ∧ ¬ Preserves (keyring "revoked") rotator "k1" rotation := by
  have hdead : authenticates (keyring "revoked") (keyOf "revoked") = false := by decide
  refine ⟨keyring_keyed _, hdead, ?_⟩
  obtain ⟨rawKey, a, hresult⟩ :=
    rotate_inserts (keyring_rotatable "revoked") (keyring_inserts "revoked")
  unfold Preserves
  rintro ⟨k, ⟨hk, hauth⟩, -⟩
  obtain rfl := mem_singleton.1 hk
  cases hauth

theorem active_key_rotates :
    authenticates (keyring "active") (keyOf "active")
      ∧ Preserves (keyring "active") rotator "k1" rotation := by
  have hgood : authenticates (keyring "active") (keyOf "active") := by decide
  refine ⟨hgood, (rotation_preserves_iff (keyring_keyed _)).2 ?_⟩
  intro k hfind _ _
  obtain ⟨hk, -⟩ := findKey_some hfind
  obtain rfl := mem_singleton.1 hk
  exact .inl ⟨keyring_inserts _, rfl, hgood, rfl⟩

end AegisGate.Iam
