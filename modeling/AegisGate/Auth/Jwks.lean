import AegisGate.Core.Json
import AegisGate.Lib.Proc

/-!
# Signing keys of the identity providers

`src/auth/oidc_client.cpp` as `AdminController::handleSsoCallback` uses it: one client, shared by all
callbacks, with its caches behind `cache_mutex_`.

* `Client`, `exec`  the two caches and what each locked section or request does to them;
* `fetchJwks`, `findKey`, `verifyIdToken`, `callback`  the functions as programs over those calls;
* `Owned`  the cache still holds a key;
* `Quiet`  no key set is replaced under a callback that is about to use one of its keys.

A key is its address.  `findKey` returns it after the lock is released, and replacing a key set frees
the old keys.  Answers from outside (documents, tokens, clocks, signature checks) come from a `World`,
one for each call.
-/

namespace AegisGate.Oidc

open List Proc Function Json Pool Run

structure DiscoveryDoc where
  issuer : String
  authorizationEndpoint : String
  tokenEndpoint : String
  jwksUri : String
  userinfoEndpoint : String
  endSessionEndpoint : String
  deriving DecidableEq

/-- an id token: `header` and `claims` are `none` when missing or not parsed; `signed`: the
signature part decodes to something -/
structure Jwt where
  header : Option Json
  claims : Option Json
  signed : Bool

structure CachedDiscovery where
  doc : DiscoveryDoc
  fetchedAt : Int

structure CachedJwks where
  keys : List (String × Nat) := []
  fetchedAt : Int := 0
  lastRefreshAttempt : Int := 0

/-- the client: its caches, the next free address, and the number of calls made so far -/
structure Client where
  discoveryCache : String → Option CachedDiscovery
  jwksCache : String → Option CachedJwks
  next : Nat
  tick : Nat

/-- the answers from outside, by the number of the call; a document that cannot be fetched or does
not parse is `none` -/
structure World where
  http : Nat → String → Option Json
  exchange : Nat → Option Jwt
  steadyNow : Nat → Int
  systemNow : Nat → Int
  verifies : Nat → Bool
  /-- modulus and exponent give a key -/
  rsaBuilds : String → String → Bool

def kDiscoveryTtl : Int := 24 * 3600
def kJwksRefreshCooldown : Int := 60

/-! ## calls -/

inductive Call where
  | cachedDoc (issuerUrl : String)
  | http (url : String)
  | cacheDoc (issuerUrl : String) (doc : DiscoveryDoc)
  | exchangeCode
  | lookup (issuer kid : String)
  | refreshState (issuer : String)
  | markRefresh (issuer : String)
  | replaceKeys (issuer : String) (kids : List String)
  | digestVerify (key : Nat)
  | systemClock

abbrev Call.Answer : Call → Type
  | .cachedDoc _ => Option DiscoveryDoc
  | .http _ => Option Json
  | .cacheDoc _ _ => Unit
  | .exchangeCode => Option Jwt
  | .lookup _ _ => Option Nat
  | .refreshState _ => String × Bool
  | .markRefresh _ => Unit
  | .replaceKeys _ _ => Unit
  | .digestVerify _ => Bool
  | .systemClock => Int

def Client.lookup (s : Client) (issuer kid : String) : Option Nat :=
  (s.jwksCache issuer).bind (·.keys.lookup kid)

/-- a new allocation for each key, in the place of the old ones -/
def Client.replaceKeys (s : Client) (issuer : String) (kids : List String) (now : Int) : Client :=
  { s with
    jwksCache := update s.jwksCache issuer
      (some { keys := kids.zip (List.range' s.next kids.length)
              fetchedAt := now
              lastRefreshAttempt := ((s.jwksCache issuer).map (·.lastRefreshAttempt)).getD 0 })
    next := s.next + kids.length }

def Client.markRefresh (s : Client) (issuer : String) (now : Int) : Client :=
  { s with
    jwksCache := update s.jwksCache issuer
      ((s.jwksCache issuer).map (fun c => { c with lastRefreshAttempt := now })) }

section
variable (w : World)

/-- one call, atomic under `cache_mutex_` -/
def exec : (c : Call) → Client → c.Answer × Client
  | .cachedDoc url, s =>
    ((s.discoveryCache url).bind (fun c =>
      if w.steadyNow s.tick - c.fetchedAt < kDiscoveryTtl then some c.doc else none),
      { s with tick := s.tick + 1 })
  | .http url, s => (w.http s.tick url, { s with tick := s.tick + 1 })
  | .cacheDoc url doc, s =>
    ((), { s with
      discoveryCache := update s.discoveryCache url (some ⟨doc, w.steadyNow s.tick⟩)
      tick := s.tick + 1 })
  | .exchangeCode, s => (w.exchange s.tick, { s with tick := s.tick + 1 })
  | .lookup issuer kid, s => (s.lookup issuer kid, { s with tick := s.tick + 1 })
  | .refreshState issuer, s =>
    ((((s.discoveryCache issuer).map (·.doc.jwksUri)).getD "", (s.jwksCache issuer).any (fun c =>
        decide (w.steadyNow s.tick - c.lastRefreshAttempt < kJwksRefreshCooldown))),
      { s with tick := s.tick + 1 })
  | .markRefresh issuer, s =>
    ((), { s.markRefresh issuer (w.steadyNow s.tick) with tick := s.tick + 1 })
  | .replaceKeys issuer kids, s =>
    ((), { s.replaceKeys issuer kids (w.steadyNow s.tick) with tick := s.tick + 1 })
  | .digestVerify _, s => (w.verifies s.tick, { s with tick := s.tick + 1 })
  | .systemClock, s => (w.systemNow s.tick, { s with tick := s.tick + 1 })

abbrev Prog (α : Type) := Proc Call Call.Answer α

def call (c : Call) : Prog c.Answer := op c

/-! ## discovery -/

def wellKnown (issuerUrl : String) : String :=
  (if issuerUrl.endsWith "/" then (issuerUrl.dropEnd 1).toString else issuerUrl) ++
    "/.well-known/openid-configuration"

def readDoc (j : Json) : Except TypeError DiscoveryDoc := do
  let issuer ← j.valueStr "issuer" ""
  let authorizationEndpoint ← j.valueStr "authorization_endpoint" ""
  let tokenEndpoint ← j.valueStr "token_endpoint" ""
  let jwksUri ← j.valueStr "jwks_uri" ""
  let userinfoEndpoint ← j.valueStr "userinfo_endpoint" ""
  let endSessionEndpoint ← j.valueStr "end_session_endpoint" ""
  pure { issuer, authorizationEndpoint, tokenEndpoint, jwksUri, userinfoEndpoint,
         endSessionEndpoint }

def discover (issuerUrl : String) : Prog (Option DiscoveryDoc) :=
  if issuerUrl = "" then pure none
  else do
    match ← call (.cachedDoc issuerUrl) with
    | some doc => pure (some doc)
    | none =>
      match ← call (.http (wellKnown issuerUrl)) with
      | none => pure none
      | some j =>
        match readDoc j with
        | .error _ => pure none
        | .ok doc => do
          call (.cacheDoc issuerUrl doc)
          pure (some doc)

/-! ## keys -/

def isText (text : String) : Option Json → Bool
  | some (.str s) => s = text
  | _ => false

def jwkToEvpPkey (jwk : Json) : Except TypeError Bool :=
  if !isText "RSA" (jwk.find? "kty") then .ok false
  else if (jwk.find? "n").isNone || (jwk.find? "e").isNone then .ok false
  else do
    let n ← jwk.valueStr "n" ""
    let e ← jwk.valueStr "e" ""
    pure (w.rsaBuilds n e)

/-- the `kid` of an RSA key for signatures that can be built -/
def signingKid (jwk : Json) : Except TypeError (Option String) := do
  let kty ← jwk.valueStr "kty" ""
  if kty ≠ "RSA" then pure none
  else if jwk.contains "use" && !isText "sig" (jwk.find? "use") then pure none
  else
    let kid ← jwk.valueStr "kid" ""
    if kid = "" then pure none
    else
      let built ← jwkToEvpPkey w jwk
      pure (if built then some kid else none)

/-- the keys of a document; a second key with the same `kid` is dropped -/
def signingKids (j : Json) : Option (List String) :=
  match j.find? "keys" with
  | some (.arr l) =>
    match l.mapM (signingKid w) with
    | .ok kids => some (kids.filterMap id).eraseDups
    | .error _ => none
  | _ => none

def fetchJwks (jwksUri issuer : String) : Prog Bool :=
  if jwksUri = "" ∨ issuer = "" then pure false
  else do
    match ← call (.http jwksUri) with
    | none => pure false
    | some j =>
      match signingKids w j with
      | none => pure false
      | some kids => do
        call (.replaceKeys issuer kids)
        pure true

def findKey (issuer kid : String) : Prog (Option Nat) := do
  match ← call (.lookup issuer kid) with
  | some key => pure (some key)
  | none =>
    let (jwksUri, coolingDown) ← call (.refreshState issuer)
    if coolingDown then pure none
    else if jwksUri = "" then pure none
    else do
      call (.markRefresh issuer)
      let fetched ← fetchJwks w jwksUri issuer
      if fetched then call (.lookup issuer kid) else pure none

/-! ## id tokens -/

def headerKid (header : Json) : Except TypeError (Option String) := do
  let alg ← header.valueStr "alg" ""
  if alg ≠ "RS256" then pure none
  else
    let kid ← header.valueStr "kid" ""
    pure (if kid = "" then none else some kid)

def audienceMatches (claims : Json) (expected : String) : Bool :=
  match claims.find? "aud" with
  | some (.str s) => s = expected
  | some (.arr l) => l.any fun
    | .str s => s = expected
    | _ => false
  | _ => false

/-- `exp` as a number, if there is one -/
def expiry (claims : Json) : Except TypeError (Option Int) :=
  match claims.find? "exp" with
  | none => .ok none
  | some (.int n) => .ok (some n)
  | some (.float q) => .ok (some (if 0 ≤ q then q.floor else -(-q).floor))
  | some _ => .error ⟨302⟩

def checkClaims (claims : Json) (audience issuer : String) (now : Int) :
    Except TypeError (Option Json) := do
  let iss ← claims.valueStr "iss" ""
  if iss ≠ issuer then pure none
  else if !audienceMatches claims audience then pure none
  else
    match ← expiry claims with
    | none => pure none
    | some exp => pure (if exp ≤ now then none else some claims)

/-- the part of `verifyIdToken` that has a key -/
def verifyWith (t : Jwt) (key : Nat) (audience issuer : String) :
    Prog (Except TypeError (Option Json)) :=
  if !t.signed then pure (.ok none)
  else do
    let ok ← call (.digestVerify key)
    if !ok then pure (.ok none)
    else
      match t.claims with
      | none => pure (.ok none)
      | some claims => do
        let now ← call .systemClock
        pure (checkClaims claims audience issuer now)

def verifyIdToken (t : Jwt) (audience issuer : String) : Prog (Except TypeError (Option Json)) :=
  match t.header.map headerKid with
  | none => pure (.ok none)
  | some (.error e) => pure (.error e)
  | some (.ok none) => pure (.ok none)
  | some (.ok (some kid)) => do
    match ← findKey w issuer kid with
    | none => pure (.ok none)
    | some key => verifyWith t key audience issuer

/-- `handleSsoCallback` up to the claims: keys are stored under the configured issuer and looked up
under the announced one -/
def callback (issuerUrl clientId : String) : Prog (Except TypeError (Option Json)) := do
  match ← discover issuerUrl with
  | none => pure (.ok none)
  | some doc =>
    match ← call .exchangeCode with
    | none => pure (.ok none)
    | some t => do
      let _ ← fetchJwks w doc.jwksUri issuerUrl
      verifyIdToken w t clientId doc.issuer

end

/-! ## callbacks in progress -/

abbrev Callbacks := Pool Client Call Call.Answer (Except TypeError (Option Json))

inductive CallbackEvent where
  | arrive (issuerUrl clientId : String)
  | step (i : Nat)

section
variable (w : World)

def CallbackEvent.toEvent :
    CallbackEvent → Event Call Call.Answer (Except TypeError (Option Json))
  | .arrive issuerUrl clientId => .spawn (callback w issuerUrl clientId)
  | .step i => .step i

variable (P : Callbacks) (e : CallbackEvent)

def callbackStep : Callbacks := P.step (exec w) (e.toEvent w)

def HeldBy (s : Client) (issuer : String) (key : Nat) : Prop :=
  ∃ c, s.jwksCache issuer = some c ∧ key ∈ c.keys.map Prod.snd

def Owned (s : Client) (key : Nat) : Prop := ∃ issuer, HeldBy s issuer key

/-- a signature check that is about to be made uses a key that the cache still owns -/
def UsesOwned : Prop :=
  ∀ past key, P.pending (e.toEvent w) = some (past, .digestVerify key) → Owned P.store key

/-- the callback has its key and goes on to the signature check -/
def AboutToUse (t : Thread Call Call.Answer (Except TypeError (Option Json)))
    (key : Nat) : Prop := ∃ k, t.rest = .call (.digestVerify key) k

def Quiet : Prop :=
  ∀ past issuer kids, P.pending (e.toEvent w) = some (past, .replaceKeys issuer kids) →
    ∀ t ∈ P.threads, ∀ key, AboutToUse t key → ¬ HeldBy P.store issuer key

end

/-! ## where keys come from -/

def UsesLookup (past : List ((c : Call) × c.Answer)) : Call → Prop
  | .digestVerify key => ∃ issuer kid past', past = ⟨.lookup issuer kid, some key⟩ :: past'
  | _ => True

abbrev anyAnswer (c : Call) (_ : c.Answer) : Prop := True

abbrev Past := List ((c : Call) × c.Answer)

section
variable {past : Past}

lemma wp_call {c : Call} {Q : Past → c.Answer → Prop} (hc : UsesLookup past c)
    (hQ : ∀ r, Q (⟨c, r⟩ :: past) r) : wp UsesLookup anyAnswer past (call c) Q :=
  ⟨hc, fun r _ => hQ r⟩

lemma wp_fetchJwks (w : World) (jwksUri issuer : String)
    {Q : Past → Bool → Prop} (hQ : ∀ past b, Q past b) :
    wp UsesLookup anyAnswer past (fetchJwks w jwksUri issuer) Q := by
  unfold fetchJwks
  split
  · exact hQ _ _
  · rw [wp_bind]
    refine wp_call trivial fun r => ?_
    cases r with
    | none => exact hQ _ _
    | some j =>
      dsimp only
      split
      · exact hQ _ _
      · rw [wp_bind]
        exact wp_call trivial fun _ => hQ _ _

lemma wp_findKey (w : World) (issuer kid : String)
    {Q : Past → Option Nat → Prop} (hnone : ∀ past, Q past none)
    (hsome : ∀ past key, Q (⟨.lookup issuer kid, some key⟩ :: past) (some key)) :
    wp UsesLookup anyAnswer past (findKey w issuer kid) Q := by
  unfold findKey
  rw [wp_bind]
  refine wp_call trivial fun r => ?_
  cases r with
  | some key => exact hsome past key
  | none =>
    rw [wp_bind]
    refine wp_call trivial fun r => ?_
    dsimp only
    split
    · exact hnone _
    split
    · exact hnone _
    · rw [wp_bind]
      refine wp_call trivial fun _ => ?_
      rw [wp_bind]
      refine wp_fetchJwks w _ _ fun past' b => ?_
      cases b with
      | false => exact hnone _
      | true =>
        refine wp_call trivial fun r => ?_
        cases r with
        | none => exact hnone _
        | some key => exact hsome _ key

lemma wp_discover (issuerUrl : String)
    {Q : Past → Option DiscoveryDoc → Prop} (hQ : ∀ past r, Q past r) :
    wp UsesLookup anyAnswer past (discover issuerUrl) Q := by
  unfold discover
  split
  · exact hQ _ _
  · rw [wp_bind]
    refine wp_call trivial fun r => ?_
    cases r with
    | some doc => exact hQ _ _
    | none =>
      rw [wp_bind]
      refine wp_call trivial fun r => ?_
      cases r with
      | none => exact hQ _ _
      | some j =>
        dsimp only
        split
        · exact hQ _ _
        · rw [wp_bind]
          exact wp_call trivial fun _ => hQ _ _

lemma wp_verifyWith {t : Jwt} {key : Nat} {audience issuer : String}
    (h : UsesLookup past (.digestVerify key)) :
    wp UsesLookup anyAnswer past (verifyWith t key audience issuer) (fun _ _ => True) := by
  unfold verifyWith
  split
  · trivial
  · rw [wp_bind]
    refine wp_call h fun r => ?_
    cases r with
    | false => trivial
    | true =>
      cases t.claims with
      | none => trivial
      | some claims =>
        show wp UsesLookup anyAnswer _ (call .systemClock >>= fun now => _) _
        rw [wp_bind]
        exact wp_call trivial fun _ => trivial

end

lemma wp_verifyIdToken (w : World) (t : Jwt) (audience issuer : String) (past : Past) :
    wp UsesLookup anyAnswer past (verifyIdToken w t audience issuer) (fun _ _ => True) := by
  unfold verifyIdToken
  split
  · trivial
  · trivial
  · trivial
  · next kid _ =>
    rw [wp_bind]
    refine wp_findKey w issuer kid (fun _ => trivial) fun past key => ?_
    exact wp_verifyWith ⟨issuer, kid, past, rfl⟩

lemma wp_callback (w : World) (issuerUrl clientId : String) :
    wp UsesLookup anyAnswer [] (callback w issuerUrl clientId) (fun _ _ => True) := by
  unfold callback
  rw [wp_bind]
  refine wp_discover issuerUrl fun past r => ?_
  cases r with
  | none => trivial
  | some doc =>
    rw [wp_bind]
    refine wp_call trivial fun r => ?_
    cases r with
    | none => trivial
    | some t =>
      rw [wp_bind]
      exact wp_fetchJwks w _ _ fun past' _ => wp_verifyIdToken w t clientId doc.issuer past'

/-! ## runs -/

section
variable {issuer kid : String} {key : Nat} {s : Client}

lemma heldBy_markRefresh {i : String} {now : Int} :
    HeldBy (s.markRefresh i now) issuer key ↔ HeldBy s issuer key := by
  unfold HeldBy Client.markRefresh
  dsimp only
  by_cases hi : issuer = i
  · subst hi
    rw [update_self]
    cases s.jwksCache issuer with
    | none => constructor <;> (rintro ⟨_, h, _⟩; cases h)
    | some c =>
      constructor
      · rintro ⟨c', hc', hkey⟩
        cases hc'
        exact ⟨c, rfl, hkey⟩
      · rintro ⟨c', hc', hkey⟩
        cases hc'
        exact ⟨_, rfl, hkey⟩
  · rw [update_of_ne hi]

lemma exec_heldBy (w : World) (c : Call) (s : Client) (issuer : String) (key : Nat) :
    HeldBy s issuer key → (∀ kids, c ≠ .replaceKeys issuer kids) →
      HeldBy (exec w c s).2 issuer key := by
  rintro ⟨set, hset, hkey⟩ hother
  cases c with
  | markRefresh i => exact heldBy_markRefresh.2 ⟨set, hset, hkey⟩
  | replaceKeys i kids =>
    have hi : issuer ≠ i := fun e => hother kids (by rw [e])
    refine ⟨set, ?_, hkey⟩
    show update s.jwksCache i _ issuer = _
    rw [update_of_ne hi, hset]
  | _ => exact ⟨set, hset, hkey⟩

lemma heldBy_of_lookup (h : s.lookup issuer kid = some key) : HeldBy s issuer key := by
  obtain ⟨c, hc, hkey⟩ := Option.bind_eq_some_iff.1 h
  obtain ⟨l1, l2, hsplit, -⟩ := lookup_eq_some_iff.1 hkey
  refine ⟨c, hc, mem_map.2 ⟨(kid, key), ?_, rfl⟩⟩
  rw [hsplit]
  exact mem_append_right _ mem_cons_self

lemma heldBy_of_answer {w : World} {c : Call}
    (h : (⟨c, (exec w c s).1⟩ : (c : Call) × c.Answer) = ⟨.lookup issuer kid, some key⟩) :
    HeldBy (exec w c s).2 issuer key := by
  injection h with hc hr
  subst hc
  exact heldBy_of_lookup (eq_of_heq hr)

/-- every callback that is about to use a key uses one that the cache owns -/
def NoneDangling (P : Callbacks) : Prop :=
  ∀ t ∈ P.threads, ∀ key, AboutToUse t key → Owned P.store key

/-- the invariant of the runs: keys are used right after their lookup, and none has been freed -/
structure Intact (P : Callbacks) : Prop where
  kept : P.Kept UsesLookup anyAnswer
  owned : NoneDangling P

end

section
variable {w : World} {P : Callbacks} {e : CallbackEvent}

lemma Intact.usesOwned (h : Intact P) (e : CallbackEvent) : UsesOwned w P e := by
  intro past key hpending
  cases e with
  | arrive => cases hpending
  | step i =>
    obtain ⟨k, hi⟩ := pending_iff.1 hpending
    exact h.owned _ (mem_of_getElem? hi) key ⟨k, rfl⟩

lemma owned_after {c : Call} {past : Past} {key : Nat}
    {t : Thread Call Call.Answer (Except TypeError (Option Json))}
    (hquiet : Quiet w P e) (hpending : P.pending (e.toEvent w) = some (past, c))
    (ht : t ∈ P.threads) (huse : AboutToUse t key) (hown : Owned P.store key) :
    Owned (exec w c P.store).2 key := by
  obtain ⟨issuer, hheld⟩ := hown
  refine ⟨issuer, exec_heldBy w c P.store issuer key hheld fun kids hc => ?_⟩
  subst hc
  exact hquiet past issuer kids hpending t ht key huse hheld

lemma Intact.step (h : Intact P) (hquiet : Quiet w P e) : Intact (callbackStep w P e) := by
  have hkept : (callbackStep w P e).Kept UsesLookup anyAnswer := by
    refine step_inv (fun _ => trivial) (fun p hp => ?_) h.kept
    cases e with
    | step i => cases hp
    | arrive issuerUrl clientId =>
      cases hp
      exact wp_callback w issuerUrl clientId
  refine ⟨hkept, ?_⟩
  cases e with
  | arrive issuerUrl clientId =>
    intro t ht key huse
    rcases mem_append.1 ht with ht | ht
    · exact h.owned t ht key huse
    · -- a new callback begins with its discovery, not with a key
      have hnew := hkept t (mem_append_right _ ht)
      obtain rfl := mem_singleton.1 ht
      obtain ⟨k, hk⟩ := huse
      rw [hk] at hnew
      obtain ⟨_, _, _, hpast⟩ := hnew.1
      cases hpast
  | step i =>
    cases hpending : P.pending (.step i) with
    | none =>
      have hsame : callbackStep w P (.step i) = P := step_of_not_pending hpending
      rw [hsame]
      exact h.owned
    | some pc =>
      obtain ⟨k, hi⟩ := pending_iff.1 hpending
      have hstep : callbackStep w P (.step i) = _ := step_eq hi
      rw [hstep] at hkept ⊢
      intro t ht key huse
      rcases mem_or_eq_of_mem_set ht with hold | rfl
      · exact owned_after hquiet hpending hold huse (h.owned t hold key huse)
      · -- the callback that moved holds a key only if its last call was the lookup
        have hnew := hkept _ ht
        obtain ⟨k', hk'⟩ := huse
        rw [hk'] at hnew
        obtain ⟨issuer, kid, past', hpast⟩ := hnew.1
        exact ⟨issuer, heldBy_of_answer (List.cons.inj hpast).1⟩

def idleClient (s : Client) : Callbacks := { store := s }

lemma intact_idle (s : Client) : Intact (idleClient s) :=
  ⟨forall_mem_nil _, forall_mem_nil _⟩

end

/-! ## addresses -/

/-- every key has an address of its own, below the next free one -/
structure Client.Allocated (s : Client) : Prop where
  below : ∀ issuer key, HeldBy s issuer key → key < s.next
  apart : ∀ i j key, HeldBy s i key → HeldBy s j key → i = j

section
variable {w : World} {P : Callbacks}

lemma heldBy_replaceKeys {s : Client} {i issuer : String} {kids : List String} {now : Int}
    {key : Nat} (h : HeldBy (s.replaceKeys i kids now) issuer key) :
    (issuer = i ∧ s.next ≤ key ∧ key < s.next + kids.length)
      ∨ issuer ≠ i ∧ HeldBy s issuer key := by
  obtain ⟨c, hc, hkey⟩ := h
  change update s.jwksCache i _ issuer = some c at hc
  by_cases hi : issuer = i
  · subst hi
    rw [update_self] at hc
    cases hc
    obtain ⟨⟨kid, key'⟩, hmem, rfl⟩ := mem_map.1 hkey
    have hrange := mem_range'_1.1 (of_mem_zip hmem).2
    exact .inl ⟨rfl, hrange⟩
  · rw [update_of_ne hi] at hc
    exact .inr ⟨hi, c, hc, hkey⟩

lemma Client.Allocated.congr {s s' : Client} (h : s.Allocated)
    (hcache : ∀ issuer key, HeldBy s' issuer key → HeldBy s issuer key) (hnext : s'.next = s.next) :
    s'.Allocated :=
  ⟨fun issuer key hk => hnext ▸ h.below issuer key (hcache _ _ hk),
    fun i j key hi hj => h.apart i j key (hcache _ _ hi) (hcache _ _ hj)⟩

lemma allocated_exec (c : Call) {s : Client} (h : s.Allocated) : (exec w c s).2.Allocated := by
  cases c with
  | markRefresh issuer => exact h.congr (fun _ _ => heldBy_markRefresh.1) rfl
  | replaceKeys issuer kids =>
    refine ⟨?_, ?_⟩
    · intro i key hk
      show key < s.next + kids.length
      rcases heldBy_replaceKeys hk with ⟨-, -, hlt⟩ | ⟨-, hold⟩
      · exact hlt
      · have hlt := h.below i key hold
        omega
    · intro i j key hi hj
      rcases heldBy_replaceKeys hi with ⟨hi, hge, -⟩ | ⟨hni, hi⟩ <;>
        rcases heldBy_replaceKeys hj with ⟨hj, hge', -⟩ | ⟨hnj, hj⟩
      · exact hi.trans hj.symm
      · have hlt := h.below j key hj
        omega
      · have hlt := h.below i key hi
        omega
      · exact h.apart i j key hi hj
  | _ => exact h.congr (fun _ _ hk => hk) rfl

lemma allocated_step (e : CallbackEvent) (h : P.store.Allocated) :
    (callbackStep w P e).store.Allocated := by
  unfold callbackStep
  rw [step_store]
  cases P.pending (e.toEvent w) with
  | none => exact h
  | some pc => exact allocated_exec pc.2 h

lemma dangling_of_not_quiet {e : CallbackEvent} (h : P.store.Allocated)
    (hnot : ¬ Quiet w P e) : ∃ i, ¬ UsesOwned w (callbackStep w P e) (.step i) := by
  unfold Quiet at hnot
  push Not at hnot
  obtain ⟨past, issuer, kids, hpending, t, ht, key, ⟨k, hk⟩, hheld⟩ := hnot
  cases e with
  | arrive => cases hpending
  | step j =>
    obtain ⟨k', hj⟩ := pending_iff.1 hpending
    have hstep : callbackStep w P (.step j) = _ := step_eq hj
    obtain ⟨i, hi⟩ := mem_iff_getElem?.1 ht
    have hne : i ≠ j := by
      rintro rfl
      rw [hj] at hi
      cases hi
      cases hk
    refine ⟨i, fun huses => ?_⟩
    obtain ⟨past', rest⟩ := t
    cases hk
    have hi' : (callbackStep w P (.step j)).threads[i]? = some ⟨past', .call (.digestVerify key) k⟩ := by
      rw [hstep]
      rw [getElem?_set_ne (hne ·.symm)]
      exact hi
    obtain ⟨issuer', hheld'⟩ := huses past' key (pending_iff.2 ⟨k, hi'⟩)
    rw [hstep] at hheld'
    have hlt := h.below issuer key hheld
    rcases heldBy_replaceKeys (s := P.store) hheld' with ⟨-, hge, -⟩ | ⟨hne', hold⟩
    · omega
    · exact hne' (h.apart _ _ key hold hheld)

/-- throughout a run each signature check finds its key in the cache, exactly when no key set was
replaced under a callback about to use one of its keys -/
theorem keys_outlive_use_iff {s : Client} (hs : s.Allocated) (events : List CallbackEvent) :
    Along (callbackStep w) (Quiet w) (idleClient s) events ↔ ∀ l, l <+: events → ∀ i,
        UsesOwned w (Run.exec (callbackStep w) (idleClient s) l) (.step i) := by
  constructor
  · intro hquiet l hl i
    have hintact := Along.inv (I := Intact) (A := fun _ => True)
      (fun _ _ h _ hq => h.step hq) events (idleClient s) (intact_idle s) (fun _ _ => trivial)
      hquiet l hl
    exact hintact.usesOwned _
  · intro h
    rw [along_iff_split]
    intro l1 e l2 hsplit
    by_contra hnot
    have halloc : (Run.exec (callbackStep w) (idleClient s) l1).store.Allocated :=
      exec_inv (I := fun P : Callbacks => P.store.Allocated) (P := fun _ => True)
        (fun _ e _ hP => allocated_step e hP) l1 (idleClient s) hs fun _ _ => trivial
    obtain ⟨i, hi⟩ := dangling_of_not_quiet halloc hnot
    refine hi ?_
    have hmore := h (l1 ++ [e]) (by rw [hsplit]; exact ⟨l2, by simp⟩) i
    rw [exec_append] at hmore
    exact hmore

lemma quiet_alone {e : CallbackEvent} (h : P.threads.length ≤ 1) : Quiet w P e := by
  intro past issuer kids hpending t ht key huse
  cases e with
  | arrive => cases hpending
  | step j =>
    obtain ⟨k', hj⟩ := pending_iff.1 hpending
    obtain ⟨i, hi⟩ := mem_iff_getElem?.1 ht
    have hij : i = j := by
      have := (List.getElem?_eq_some_iff.1 hi).1
      have := (List.getElem?_eq_some_iff.1 hj).1
      omega
    subst hij
    rw [hi] at hj
    cases hj
    obtain ⟨k, hk⟩ := huse
    cases hk

end

/-! ## two logins at once -/

/-- a provider whose discovery document is cached and whose one key is `k1` -/
def idpDoc : DiscoveryDoc where
  issuer := "https://idp"
  authorizationEndpoint := ""
  tokenEndpoint := "https://idp/token"
  jwksUri := "https://idp/jwks"
  userinfoEndpoint := ""
  endSessionEndpoint := ""

def idpWorld : World where
  http _ _ := some (.obj [("keys", .arr [.obj [("kty", .str "RSA"), ("kid", .str "k1"),
    ("n", .str "AQAB"), ("e", .str "AQAB")]])])
  exchange _ := some ⟨some (.obj [("alg", .str "RS256"), ("kid", .str "k1")]), none, true⟩
  steadyNow _ := 0
  systemNow _ := 0
  verifies _ := true
  rsaBuilds _ _ := true

def idpClient : Client where
  discoveryCache := update (fun _ => none) "https://idp" (some ⟨idpDoc, 0⟩)
  jwksCache := fun _ => none
  next := 0
  tick := 0

lemma idpClient_allocated : idpClient.Allocated := by
  refine ⟨?_, ?_⟩
  · rintro issuer key ⟨c, hc, -⟩
    cases hc
  · rintro i j key ⟨c, hc, -⟩
    cases hc

/-- the first login looks its key up, the second one replaces the keys -/
def twoLogins : List CallbackEvent :=
  [.arrive "https://idp" "gw", .arrive "https://idp" "gw", .step 0, .step 0, .step 0, .step 0,
    .step 0, .step 1, .step 1, .step 1, .step 1]

theorem login_uses_freed_key :
    idpClient.Allocated
      ∧ (∃ past, (Run.exec (callbackStep idpWorld) (idleClient idpClient) twoLogins).pending
          (.step 0) = some (past, .digestVerify 0))
      ∧ ¬ Owned (Run.exec (callbackStep idpWorld) (idleClient idpClient) twoLogins).store 0 := by
  refine ⟨idpClient_allocated, ⟨_, rfl⟩, ?_⟩
  rintro ⟨issuer, c, hc, hkey⟩
  change update (update (fun _ => none) "https://idp" _) "https://idp"
    (some { keys := [("k1", 1)] }) issuer = some c at hc
  by_cases hi : issuer = "https://idp"
  · subst hi
    cases hc
    revert hkey
    decide
  · rw [update_of_ne hi, update_of_ne hi] at hc
    cases hc

def oneLogin : List CallbackEvent :=
  [.arrive "https://idp" "gw", .step 0, .step 0, .step 0, .step 0, .step 0]

lemma oneLogin_quiet :
    Along (callbackStep idpWorld) (Quiet idpWorld) (idleClient idpClient) oneLogin := by
  refine ⟨quiet_alone (by decide), ?_⟩
  refine along_of_inv (I := fun P : Callbacks => P.threads.length ≤ 1)
    (A := fun e => ∃ i, e = .step i) ?_ _ _ (by decide) (by simp)
  rintro P e hP ⟨i, rfl⟩
  refine ⟨quiet_alone hP, ?_⟩
  show (P.step (exec idpWorld) (.step i)).threads.length ≤ 1
  unfold step
  dsimp only
  split
  · rw [length_set]
    exact hP
  · exact hP

theorem login_alone_uses_owned :
    idpClient.Allocated
      ∧ (∃ past, (Run.exec (callbackStep idpWorld) (idleClient idpClient) oneLogin).pending
          (.step 0) = some (past, .digestVerify 0))
      ∧ UsesOwned idpWorld (Run.exec (callbackStep idpWorld) (idleClient idpClient) oneLogin)
          (.step 0) :=
  ⟨idpClient_allocated, ⟨_, rfl⟩,
    (keys_outlive_use_iff idpClient_allocated oneLogin).1 oneLogin_quiet oneLogin (prefix_refl _) 0⟩

end AegisGate.Oidc
