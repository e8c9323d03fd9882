import AegisGate.Server.AdminIam

/-!
# What an administrator can reach

Two laws about the calls of the IAM controller, over whole sequences of calls.

* `Within`, `targets`  the principals a call operates on, and those its actor stands above;
* `Safe`  no `super_admin` within reach of a tenant administrator;
* `Sound`, `Guarded`  no key above its owner, and the calls that keep it so.

The controller compares the actor with the role it is asked to grant and with the tenant of the
record.  Neither check looks at the role the target has, and a key keeps the role it was issued with.
-/

namespace AegisGate.Iam

open List AuthStore Option Run

/-! ## targets -/

structure Principal where
  role : Role
  tenantId : String
  deriving DecidableEq

def ofUser (u : User) : Principal := ⟨u.role, u.tenantId⟩

def ofKey (k : ApiKeyRecord) : Principal := ⟨k.role, k.tenantId⟩

def userAt (st : AuthStore) (id : String) : List Principal := (st.getUser id).toList.map ofUser

def keyAt (st : AuthStore) (id : String) : List Principal :=
  (st.apiKeys.filter (·.id = id)).flatMap (fun k => ofKey k :: userAt st k.userId)

def targets (st : AuthStore) : Call → List Principal
  | .updateUser id _ => userAt st id
  | .deleteUser id => userAt st id
  | .createApiKey body =>
    match body.valueStr "user_id" "" with
    | .ok id => userAt st id
    | .error _ => []
  | .revokeApiKey id => keyAt st id
  | .rotateApiKey id => keyAt st id
  | _ => []

/-- no higher role than the actor's, and no other tenant unless the actor is `super_admin` -/
def Within (actor : AuthContext) (p : Principal) : Prop :=
  p.role.rank ≤ actor.role.rank ∧ (actor.role = .superAdmin ∨ p.tenantId = actor.tenantId)

section
variable (sha256 : String → String)

/-- if the call succeeds, all that it operates on is within the actor's reach -/
def Bounded (st : AuthStore) (e : Event) : Prop :=
  succeeds sha256 st e → ∀ p ∈ targets st e.call, Within e.actor p

end

/-- nobody in the tenant of a tenant administrator is `super_admin`, and its keys are its users' -/
structure TenantSafe (st : AuthStore) (tenantId : String) : Prop where
  users : ∀ id u, st.getUser id = some u → u.tenantId = tenantId → u.role ≠ .superAdmin
  keys : ∀ k ∈ st.apiKeys, k.tenantId = tenantId → k.role ≠ .superAdmin
  owners : ∀ k ∈ st.apiKeys, k.tenantId = tenantId →
    ∀ u, st.getUser k.userId = some u → u.role ≠ .superAdmin ∧ u.tenantId = tenantId

def Safe (st : AuthStore) (actor : AuthContext) : Prop :=
  actor.role = .tenantAdmin → TenantSafe st actor.tenantId

/-! ## roles -/

section
variable {actor : AuthContext} {p : Principal} {r : Role}

lemma Role.of_tenantAdmin_le (h : Role.tenantAdmin.rank ≤ r.rank) :
    r = .tenantAdmin ∨ r = .superAdmin := by
  cases r with
  | tenantAdmin => exact .inl rfl
  | superAdmin => exact .inr rfl
  | _ => exact absurd h (by decide)

lemma within_superAdmin (h : actor.role = .superAdmin) (p : Principal) : Within actor p := by
  refine ⟨?_, .inl h⟩
  rw [h]
  cases p.role <;> decide

lemma within_tenantAdmin (h : actor.role = .tenantAdmin) (hrole : p.role ≠ .superAdmin)
    (htenant : p.tenantId = actor.tenantId) : Within actor p := by
  refine ⟨?_, .inr htenant⟩
  rw [h]
  cases hr : p.role with
  | superAdmin => exact absurd hr hrole
  | _ => decide

lemma not_within (h : actor.role = .tenantAdmin)
    (hp : p.role = .superAdmin ∨ p.tenantId ≠ actor.tenantId) : ¬ Within actor p := by
  rintro ⟨hrank, htenant⟩
  rcases hp with hp | hp
  · rw [hp, h] at hrank
    exact absurd hrank (by decide)
  · rcases htenant with hs | ht
    · rw [h] at hs
      cases hs
    · exact hp ht

end

/-! ## what the checks let through -/

section
variable {sha256 : String → String} {st : AuthStore} {ctx : AuthContext}
  {k : ApiKeyRecord} {u : User}

lemma administers {tenantId : String} (hrbac : ctx.isRbacEnabled)
    (hauth : authorize ctx .tenantAdmin tenantId) :
    ctx.role = .superAdmin ∨ ctx.role = .tenantAdmin ∧ ctx.tenantId = tenantId := by
  obtain ⟨hrank, htenant⟩ := (authorize_iff hrbac).1 hauth
  rcases Role.of_tenantAdmin_le hrank with h | h
  · rw [h] at htenant
    exact .inr ⟨h, htenant.resolve_left (by decide)⟩
  · exact .inl h

lemma mem_userAt {id : String} {p : Principal} :
    p ∈ userAt st id ↔ ∃ u, st.getUser id = some u ∧ ofUser u = p := by
  simp [userAt]

lemma userAt_within {id : String} (hrbac : ctx.isRbacEnabled) (hsafe : Safe st ctx)
    (hu : st.getUser id = some u) (hauth : authorize ctx .tenantAdmin u.tenantId) :
    ∀ p ∈ userAt st id, Within ctx p := by
  intro p hp
  obtain ⟨u', hu', rfl⟩ := mem_userAt.1 hp
  obtain rfl : u' = u := some.inj (hu'.symm.trans hu)
  rcases administers hrbac hauth with h | ⟨h, htenant⟩
  · exact within_superAdmin h _
  · exact within_tenantAdmin h ((hsafe h).users id u' hu htenant.symm) htenant.symm

lemma keyAt_within (hkeyed : st.Keyed) (hrbac : ctx.isRbacEnabled) (hsafe : Safe st ctx)
    (hk : k ∈ st.apiKeys) (hauth : authorize ctx .tenantAdmin k.tenantId) :
    ∀ p ∈ keyAt st k.id, Within ctx p := by
  intro p hp
  obtain ⟨k', hk', hpk⟩ := mem_flatMap.1 hp
  obtain ⟨hmem, hid⟩ := mem_filter.1 hk'
  obtain rfl : k' = k := hkeyed.eq hmem hk (of_decide_eq_true hid)
  rcases administers hrbac hauth with h | ⟨h, htenant⟩
  · exact within_superAdmin h p
  rcases mem_cons.1 hpk with rfl | hpu
  · exact within_tenantAdmin h ((hsafe h).keys k' hk htenant.symm) htenant.symm
  · obtain ⟨u, hu, rfl⟩ := mem_userAt.1 hpu
    obtain ⟨hrole, hown⟩ := (hsafe h).owners k' hk htenant.symm u hu
    exact within_tenantAdmin h hrole hown

lemma bounded_of_safe {e : Event} (hkeyed : st.Keyed) (hrbac : e.actor.isRbacEnabled)
    (hsafe : Safe st e.actor) : Bounded sha256 st e := by
  intro hok
  rcases iamStep_cases sha256 st e with ⟨-, hdone⟩ | ⟨hfail, -⟩
  · generalize iamStep sha256 st e = st' at hdone
    generalize e.call = call at hdone
    cases hdone with
    | createTenant | updateTenant | deleteTenant | createUser => intro p hp; cases hp
    | updateUser hchanged =>
      obtain ⟨u, hu, hauth, -⟩ := changedUser_spec hchanged
      exact userAt_within hrbac hsafe hu hauth
    | deleteUser hdel =>
      obtain ⟨hu, hauth⟩ := deletableUser_ok.1 hdel
      exact userAt_within hrbac hsafe hu hauth
    | createApiKey hnew =>
      obtain ⟨u, hid, hu, hauth, -⟩ := newApiKey_spec _ hnew
      intro p hp
      rw [targets, hid] at hp
      exact userAt_within hrbac hsafe hu hauth p hp
    | revokeApiKey hrev =>
      obtain ⟨hfind, hauth⟩ := revocableKey_ok.1 hrev
      obtain ⟨hk, rfl⟩ := findKey_some hfind
      exact keyAt_within hkeyed hrbac hsafe hk hauth
    | rotateApiKey hrot =>
      obtain ⟨hfind, hauth, -⟩ := rotatableKey_ok.1 hrot
      obtain ⟨hk, rfl⟩ := findKey_some hfind
      exact keyAt_within hkeyed hrbac hsafe hk hauth
  · rw [hfail] at hok
    cases hok

/-! ## what gets through -/

def startingAt (k : ApiKeyRecord) : Iteration ApiKeyRecord where
  arrange l := if k ∈ l then k :: l.erase k else l
  perm l := by
    split
    · next h => exact (perm_cons_erase h).symm
    · exact .refl _

def smoothDraw (keyOrder : Iteration ApiKeyRecord) : Draw where
  id := "0"
  id_ne := by decide
  randomBytes := none
  keyOrder := keyOrder
  tenantOrder := .stored
  accepts := fun _ => true

lemma succeeds_deleteUser {id : String} (order : Iteration ApiKeyRecord)
    (hu : st.getUser id = some u) (hauth : authorize ctx .tenantAdmin u.tenantId) :
    succeeds sha256 st ⟨ctx, .deleteUser id, smoothDraw order⟩ := by
  show (deleteUser st ctx id (smoothDraw order)).2.isOk
  unfold deleteUser
  rw [deletableUser_ok.2 ⟨hu, hauth⟩]
  simp [attempt, commit, smoothDraw, AuthStore.deleteUser, hu, Except.isOk, Except.toBool]

lemma findKey_startingAt (hk : k ∈ st.apiKeys) :
    findKey st (smoothDraw (startingAt k)) k.id = some k := by
  simp [findKey, listApiKeys, smoothDraw, startingAt, hk]

lemma succeeds_revokeApiKey (hk : k ∈ st.apiKeys)
    (hauth : authorize ctx .tenantAdmin k.tenantId) :
    succeeds sha256 st ⟨ctx, .revokeApiKey k.id, smoothDraw (startingAt k)⟩ := by
  show (revokeApiKey st ctx k.id (smoothDraw (startingAt k))).2.isOk
  unfold revokeApiKey
  rw [revocableKey_ok.2 ⟨findKey_startingAt hk, hauth⟩]
  have hany : st.apiKeys.any (fun k' => k'.id = k.id) :=
    any_eq_true.2 ⟨k, hk, decide_eq_true rfl⟩
  simp [attempt, commit, smoothDraw, AuthStore.revokeApiKey, hany, Except.isOk, Except.toBool]

lemma safe_of_bounded (hrbac : ctx.isRbacEnabled)
    (h : ∀ call d, Bounded sha256 st ⟨ctx, call, d⟩) : Safe st ctx := by
  intro hrole
  have hauth : ∀ t, t = ctx.tenantId → authorize ctx .tenantAdmin t := by
    intro t ht
    rw [authorize_iff hrbac, hrole]
    exact ⟨le_refl _, .inr ht.symm⟩
  have hkey : ∀ k ∈ st.apiKeys, k.tenantId = ctx.tenantId → ∀ p ∈ keyAt st k.id, Within ctx p :=
    fun k hk ht => h _ _ (succeeds_revokeApiKey hk (hauth _ ht))
  have hself : ∀ k ∈ st.apiKeys, ∀ p ∈ ofKey k :: userAt st k.userId, p ∈ keyAt st k.id :=
    fun k hk p hp =>
      mem_flatMap.2 ⟨k, mem_filter.2 ⟨hk, decide_eq_true rfl⟩, hp⟩
  refine ⟨?_, ?_, ?_⟩
  · intro id u hu ht hs
    have hok : succeeds sha256 st ⟨ctx, .deleteUser id, smoothDraw ⟨_, fun _ => .refl _⟩⟩ :=
      succeeds_deleteUser _ hu (hauth _ ht)
    exact not_within hrole (.inl hs) (h _ _ hok (ofUser u) (mem_userAt.2 ⟨u, hu, rfl⟩))
  · intro k hk ht hs
    exact not_within hrole (.inl hs) (hkey k hk ht _ (hself k hk _ mem_cons_self))
  · intro k hk ht u hu
    have hwithin := hkey k hk ht _
      (hself k hk _ (mem_cons_of_mem _ (mem_userAt.2 ⟨u, hu, rfl⟩)))
    refine ⟨fun hs => not_within hrole (.inl hs) hwithin, ?_⟩
    by_contra hne
    exact not_within hrole (.inr hne) hwithin

/-- an actor's calls stay within reach exactly in the states that are safe for the actor, and along
every sequence of calls made in such states -/
theorem operates_within_iff (hkeyed : st.Keyed) :
    (∀ actor : AuthContext, actor.isRbacEnabled →
        (Safe st actor ↔ ∀ call d, Bounded sha256 st ⟨actor, call, d⟩))
      ∧ ∀ events, Along (iamStep sha256)
          (fun s e => e.actor.isRbacEnabled ∧ Safe s e.actor) st events →
        Along (iamStep sha256) (Bounded sha256) st events := by
  constructor
  · intro actor hrbac
    exact ⟨fun hsafe call d => bounded_of_safe hkeyed hrbac hsafe, safe_of_bounded hrbac⟩
  · intro events
    refine Along.of_inv (I := Keyed) ?_ hkeyed
    rintro s e hs ⟨hrbac, hsafe⟩
    exact ⟨bounded_of_safe hs hrbac hsafe, iamStep_keyed hs e⟩

end

/-! ## a tenant with a `super_admin` of its own -/

def shopAdmin : AuthContext :=
  { tenantId := "shop", userId := "u2", role := .tenantAdmin, isRbacEnabled := true }

def shop : AuthStore where
  apiKeys := []
  users :=
    [{ id := "u1", tenantId := "shop", username := "operator", role := .superAdmin },
     { id := "u2", tenantId := "shop", username := "admin", role := .tenantAdmin }]
  tenants := [{ id := "shop" }]

def suspension : Event where
  actor := shopAdmin
  call := .updateUser "u1" (.obj [("status", .str "suspended")])
  draw := smoothDraw .stored

theorem admin_suspends_operator :
    shop.Keyed ∧ succeeds id shop suspension ∧ ⟨.superAdmin, "shop"⟩ ∈ targets shop suspension.call
      ∧ ¬ Within suspension.actor ⟨.superAdmin, "shop"⟩ := by
  refine ⟨nodup_nil, by decide, by decide, not_within rfl (.inl rfl)⟩

/-- the tenant without its operator, and a user who leaves -/
def branch : AuthStore where
  apiKeys := []
  users :=
    [{ id := "u2", tenantId := "shop", username := "admin", role := .tenantAdmin },
     { id := "u3", tenantId := "shop", username := "clerk", role := .viewer }]
  tenants := [{ id := "shop" }]

def dismissal : Event where
  actor := shopAdmin
  call := .deleteUser "u3"
  draw := smoothDraw .stored

lemma branch_safe : Safe branch shopAdmin := by
  intro _
  refine ⟨?_, by simp [branch], by simp [branch]⟩
  intro id u hu _
  have hmem : u ∈ branch.users := mem_of_find?_eq_some hu
  simp only [branch, mem_cons, not_mem_nil, or_false] at hmem
  rcases hmem with rfl | rfl <;> decide

theorem operates_within_branch :
    branch.Keyed ∧ succeeds id branch dismissal
      ∧ Along (iamStep id) (Bounded id) branch [dismissal] := by
  have hkeyed : branch.Keyed := nodup_nil
  refine ⟨hkeyed, by decide, ?_⟩
  exact (operates_within_iff hkeyed).2 [dismissal] ⟨⟨rfl, branch_safe⟩, trivial⟩

/-! ## keys and their owners -/

/-- no key has a role above the one its owner has now -/
structure Sound (st : AuthStore) : Prop where
  keys : ∀ k ∈ st.apiKeys, ∀ u, st.getUser k.userId = some u → k.role.rank ≤ u.role.rank
  named : st.getUser "" = none

/-- the calls that keep it so: no key above its owner, no user below a key of theirs, and no new
user with the id of an owner of old keys -/
def Guarded (st : AuthStore) (e : Event) : Prop :=
  match e.call with
  | .createUser body =>
    ∀ k ∈ st.apiKeys, k.userId = e.draw.id → k.role.rank ≤ ((requestedRole body).getD .viewer).rank
  | .updateUser id body =>
    ∀ r, requestedRole body = some r → ∀ k ∈ st.apiKeys, k.userId = id → k.role.rank ≤ r.rank
  | .createApiKey body =>
    ∀ r id u, requestedRole body = some r → body.valueStr "user_id" "" = .ok id →
      st.getUser id = some u → r.rank ≤ u.role.rank
  | _ => True

section
variable {sha256 : String → String} {st : AuthStore} {u v : User} {id : String} {e : Event}

lemma getUser_cons (u : User) (id : String) :
    ({ st with users := u :: st.users } : AuthStore).getUser id =
      if u.id = id then some u else st.getUser id := by
  show (u :: st.users).find? _ = _
  by_cases h : u.id = id <;> simp [h, getUser]

lemma getUser_map
    (h : ({ st with users := st.users.map (fun v => if v.id = u.id then u else v) } :
      AuthStore).getUser id = some v) :
    (id = u.id ∧ v = u) ∨ (id ≠ u.id ∧ st.getUser id = some v) := by
  have hkey : ∀ w : User, (if w.id = u.id then u else w).id = w.id := by
    intro w
    split
    · next e => exact e.symm
    · rfl
  change (st.users.map _).find? _ = some v at h
  rw [find?_map] at h
  simp only [Function.comp_def, hkey] at h
  obtain ⟨w, hw, rfl⟩ := map_eq_some_iff.1 h
  have hid : w.id = id := by simpa using find?_some hw
  split
  · next e => exact .inl ⟨hid.symm.trans e, rfl⟩
  · next e => exact .inr ⟨fun hne => e (hid.trans hne), hw⟩

lemma getUser_filter {removed : String}
    (h : ({ st with users := st.users.filter (·.id ≠ removed) } : AuthStore).getUser id
      = some u) : st.getUser id = some u := by
  change (st.users.filter _).find? _ = some u at h
  rw [find?_filter] at h
  have hu := find?_some h
  simp only [decide_eq_true_eq] at hu
  obtain ⟨hne, rfl⟩ := hu
  rw [← h]
  unfold getUser
  congr 1
  funext v
  by_cases hv : v.id = u.id
  · simp [hv, hne]
  · simp [hv]

lemma getUser_id (h : st.getUser id = some u) : u.id = id := by
  simpa using find?_some h

lemma getUser_map_self (h : st.getUser u.id = some v) :
    ({ st with users := st.users.map (fun v => if v.id = u.id then u else v) } :
      AuthStore).getUser u.id = some u := by
  cases hw : ({ st with users := st.users.map (fun v => if v.id = u.id then u else v) } :
      AuthStore).getUser u.id with
  | some w =>
    rcases getUser_map hw with ⟨-, rfl⟩ | ⟨hne, -⟩
    · rfl
    · exact absurd rfl hne
  | none =>
    have hid := getUser_id h
    have hmem : v ∈ st.users := mem_of_find?_eq_some h
    have hnone := find?_eq_none.1 hw u
      (mem_map.2 ⟨v, hmem, by rw [if_pos hid]⟩)
    exact absurd (decide_eq_true rfl) hnone

lemma sound_afterRevoke (h : Sound st) (id : String) (accepted : Bool) :
    Sound (afterRevoke st id accepted) := by
  have husers : ∀ i, (afterRevoke st id accepted).getUser i = st.getUser i := by
    intro i
    unfold getUser
    rw [afterRevoke_users]
  refine ⟨?_, (husers "").trans h.named⟩
  intro k' hk' u hu
  obtain ⟨k, hk, -, huser, -, hrole⟩ := mem_afterRevoke hk'
  rw [husers, huser] at hu
  rw [hrole]
  exact h.keys k hk u hu

lemma sound_step (h : Sound st) (hg : Guarded st e) : Sound (iamStep sha256 st e) := by
  rcases iamStep_cases sha256 st e with ⟨-, hdone⟩ | ⟨-, id, accepted, hst | ⟨-, hst⟩⟩
  · generalize iamStep sha256 st e = st' at hdone
    unfold Guarded at hg
    generalize e.call = call at hdone hg
    cases hdone with
    | createTenant | updateTenant | deleteTenant => exact ⟨h.keys, h.named⟩
    | @createUser body u hnew hfresh =>
      obtain ⟨hid, hrole⟩ := newUser_spec hnew
      refine ⟨?_, ?_⟩
      · intro k hk v hv
        rw [getUser_cons] at hv
        split at hv
        · next e =>
          cases hv
          rw [hrole]
          exact hg k hk (e.symm.trans hid)
        · exact h.keys k hk v hv
      · rw [getUser_cons, if_neg (by rw [hid]; exact e.draw.id_ne)]
        exact h.named
    | @updateUser id body u hchanged =>
      obtain ⟨u0, hu0, -, hrole, hid, -⟩ := changedUser_spec hchanged
      have hid0 := getUser_id hu0
      refine ⟨?_, ?_⟩
      · intro k hk v hv
        rcases getUser_map hv with ⟨huser, rfl⟩ | ⟨-, hv⟩
        · rcases changedRole_ok hrole with hreq | ⟨-, hsame⟩
          · exact hg _ hreq k hk (huser.trans (hid.trans hid0))
          · rw [hsame]
            exact h.keys k hk u0 (by rw [huser, hid, hid0]; exact hu0)
        · exact h.keys k hk v hv
      · cases hempty : getUser _ "" with
        | none => rfl
        | some v =>
          rcases getUser_map hempty with ⟨heq, -⟩ | ⟨-, hv⟩
          · have hu : st.getUser "" = some u0 := by rw [heq, hid, hid0]; exact hu0
            rw [h.named] at hu
            cases hu
          · rw [h.named] at hv
            cases hv
    | deleteUser =>
      refine ⟨fun k hk v hv => h.keys k hk v (getUser_filter hv), ?_⟩
      cases hempty : getUser _ "" with
      | none => rfl
      | some v => exact absurd (getUser_filter hempty) (by rw [h.named]; exact nofun)
    | @createApiKey body k rawKey hnew hfresh =>
      obtain ⟨u, hid, hu, -, hrole⟩ := newApiKey_spec _ hnew
      refine ⟨?_, h.named⟩
      intro k' hk' v hv
      rcases mem_cons.1 hk' with rfl | hk'
      · obtain rfl : u = v := some.inj (hu.symm.trans hv)
        rw [hrole]
        cases hreq : requestedRole body with
        | none => exact le_refl _
        | some r => exact hg r _ u hreq hid hu
      · exact h.keys k' hk' v hv
    | revokeApiKey => exact sound_afterRevoke h _ _
    | @rotateApiKey id k rawKey hrot hfresh =>
      have hrev := sound_afterRevoke h id (e.draw.accepts 0)
      obtain ⟨hfind, -⟩ := rotatableKey_ok.1 hrot
      obtain ⟨hk, -⟩ := findKey_some hfind
      refine ⟨?_, hrev.named⟩
      intro k' hk' v hv
      rcases mem_cons.1 hk' with rfl | hk'
      · refine h.keys k hk v ?_
        change (afterRevoke st id (e.draw.accepts 0)).users.find? _ = some v at hv
        rw [afterRevoke_users] at hv
        exact hv
      · exact hrev.keys k' hk' v hv
  · rw [hst]
    exact h
  · rw [hst]
    exact sound_afterRevoke h _ _

lemma guarded_of_sound (hok : succeeds sha256 st e) (h' : Sound (iamStep sha256 st e)) :
    Guarded st e := by
  rcases iamStep_cases sha256 st e with ⟨-, hdone⟩ | ⟨hfail, -⟩
  · generalize iamStep sha256 st e = st' at hdone h'
    unfold Guarded
    generalize e.call = call at hdone
    cases hdone with
    | @createUser body u hnew hfresh =>
      obtain ⟨hid, hrole⟩ := newUser_spec hnew
      intro k hk huser
      rw [← hrole]
      exact h'.keys k hk u (by rw [getUser_cons, if_pos (hid.trans huser.symm)])
    | @updateUser id body u hchanged =>
      obtain ⟨u0, hu0, -, hrole, hid, -⟩ := changedUser_spec hchanged
      have hself : u.id = id := hid.trans (getUser_id hu0)
      intro r hreq k hk huser
      rcases changedRole_ok hrole with hreq' | ⟨hnone, -⟩
      · obtain rfl : r = u.role := some.inj (hreq.symm.trans hreq')
        refine h'.keys k hk u ?_
        rw [huser, ← hself]
        exact getUser_map_self (by rw [hself]; exact hu0)
      · rw [hnone] at hreq
        cases hreq
    | @createApiKey body k rawKey hnew hfresh =>
      obtain ⟨u, hid, hu, -, hrole⟩ := newApiKey_spec _ hnew
      intro r id v hreq hid' hv
      obtain rfl : k.userId = id := Except.ok.inj (hid.symm.trans hid')
      have hle := h'.keys k mem_cons_self v hv
      rw [hrole, hreq] at hle
      exact hle
    | _ => trivial
  · rw [hfail] at hok
    cases hok

end

/-- every credential that resolves has at most the role its user has now -/
structure Effective (svc : AuthService) : Prop where
  keys : ∀ token ctx u, svc.resolve token = some ctx → svc.store.getUser ctx.userId = some u →
    ctx.role.rank ≤ u.role.rank
  sessions : ∀ mgr id ctx u, (svc.resolveSession mgr id).2 = some ctx →
    svc.store.getUser ctx.userId = some u → ctx.role.rank ≤ u.role.rank

lemma effective_of_sound {svc : AuthService} (h : Sound svc.store) : Effective svc := by
  refine ⟨?_, ?_⟩
  · intro token ctx u hctx hu
    by_cases hrbac : svc.rbac
    · obtain ⟨k, hk, -, -, -, -, huser, hrole⟩ := AuthService.resolve_rbac_spec hrbac hctx
      rw [hrole]
      exact h.keys k hk u (huser ▸ hu)
    · have hlegacy : ctx.userId = "" := AuthService.resolve_legacy_userId hrbac hctx
      rw [hlegacy, h.named] at hu
      cases hu
  · intro mgr id ctx u hctx hu
    obtain ⟨v, hv, hrole⟩ := svc.resolveSession_role hctx
    obtain rfl : v = u := some.inj (hv.symm.trans hu)
    exact le_of_eq (congrArg Role.rank hrole)

/-- from a sound store, guarded calls leave every credential at or below its owner, and a call that
succeeds leaves a sound store exactly when it is guarded -/
theorem demotion_effective_iff {sha256 : String → String} {st : AuthStore} (hsound : Sound st) :
    (∀ events, Along (iamStep sha256) Guarded st events →
        ∀ svc : AuthService, svc.store = exec (iamStep sha256) st events → Effective svc)
      ∧ ∀ e, succeeds sha256 st e → (Sound (iamStep sha256 st e) ↔ Guarded st e) := by
  constructor
  · intro events hguard svc hstore
    apply effective_of_sound
    rw [hstore]
    exact Along.inv (A := fun _ => True) (fun s e hs _ hg => sound_step hs hg) events st hsound
      (fun _ _ => trivial) hguard events (prefix_refl _)
  · intro e hok
    exact ⟨guarded_of_sound hok, sound_step hsound⟩

/-! ## a demotion that a key outlives -/

def operator : AuthContext :=
  { tenantId := "ops", userId := "u0", role := .superAdmin, isRbacEnabled := true }

def studio : AuthStore where
  apiKeys := []
  users := [{ id := "u1", tenantId := "shop", username := "dev", role := .developer }]
  tenants := [{ id := "shop" }]

def issueKey : Event where
  actor := operator
  call := .createApiKey (.obj [("user_id", .str "u1")])
  draw := { smoothDraw .stored with randomBytes := some (List.replicate 33 0) }

def demote : Event where
  actor := operator
  call := .updateUser "u1" (.obj [("role", .str "viewer")])
  draw := smoothDraw .stored

def studioService : AuthService where
  store := exec (iamStep id) studio [issueKey, demote]
  rbac := true
  config := none
  sha256 := id
  now := "2026-01-01T00:00:00Z"

def issuedToken : String := "sk-000000000000000000000000000000000"

lemma studio_sound : Sound studio := ⟨by simp [studio], rfl⟩

theorem demoted_key_keeps_role :
    Sound studio ∧ succeeds id studio issueKey ∧ succeeds id (iamStep id studio issueKey) demote
      ∧ (studioService.resolve issuedToken).map (·.role) = some .developer
      ∧ (studioService.store.getUser "u1").map (·.role) = some .viewer
      ∧ ¬ Effective studioService := by
  have hrole : (studioService.resolve issuedToken).map (·.role) = some .developer := by decide
  have huser : (studioService.store.getUser "u1").map (·.role) = some .viewer := by decide
  have hname : (studioService.resolve issuedToken).map (·.userId) = some "u1" := by decide
  refine ⟨studio_sound, by decide, by decide, hrole, huser, ?_⟩
  intro h
  obtain ⟨ctx, hctx, hctxrole⟩ := map_eq_some_iff.1 hrole
  obtain ⟨u, hu, hurole⟩ := map_eq_some_iff.1 huser
  have hid : ctx.userId = "u1" := by
    rw [hctx] at hname
    exact some.inj hname
  have hle := h.keys issuedToken ctx u hctx (hid ▸ hu)
  rw [hctxrole, hurole] at hle
  exact absurd hle (by decide)

/-- before the demotion the key is as strong as its owner -/
theorem issued_key_effective :
    succeeds id studio issueKey
      ∧ Effective { studioService with store := exec (iamStep id) studio [issueKey] } := by
  refine ⟨by decide, ?_⟩
  refine (demotion_effective_iff studio_sound).1 [issueKey] ⟨?_, trivial⟩ _ rfl
  intro r _ _ hreq
  have hnone : requestedRole (.obj [("user_id", .str "u1")]) = none := by decide
  cases hreq

end AegisGate.Iam
