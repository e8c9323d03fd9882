import AegisGate.Cache.Key
import AegisGate.Cache.Provenance
import AegisGate.Gateway.Router

/-!
# The cache between tenants

`SemanticCache::process` and `putFromContext`: a request is looked up, and its answer stored, under a
key that has its tenant in it.

* `CachePolicy`, `shouldCache`  which requests are looked up;
* `process`  the answer of the cache to a request, if it has one;
* `putFromContext`  the answer to some messages is stored.

Whatever the vector store finds, an answer goes to the tenant and conversation that it was stored for
(`answers_stay_with_tenant`).
-/

namespace AegisGate.Cache

structure CachePolicy where
  enabled : Bool := false
  skipModels : List String := []
  maxTemperature : ℚ := 1
  skipStreaming : Bool := false

def shouldCache (policy : CachePolicy) (ctx : RequestContext) : Bool :=
  if policy.enabled = false then true
  else if ctx.chatRequest.model ∈ policy.skipModels then false
  else if ctx.chatRequest.temperature.any (policy.maxTemperature < ·) then false
  else if policy.skipStreaming ∧ ctx.chatRequest.stream then false
  else true

/-- how the keys are made, and for which requests -/
structure KeyedConfig extends KeyConfig where
  policy : CachePolicy := {}
  hasResolver : Bool := false

def KeyedConfig.conversationId (k : KeyedConfig) (req : ChatRequest) : String :=
  if k.hasResolver then resolve k.sha req else ""

/-- a request that is looked up, with the readings of the clock that it meets -/
structure ContextGet where
  ctx : RequestContext
  (now nowShared : Int)

structure ContextPut where
  messages : List Message
  (response model tenantId conversationId : String)
  (now nowCommit : Int)

section
variable (cfg : CacheConfig) (k : KeyedConfig) {σ : Type} (V : VectorStore σ)

def KeyedConfig.keyInfo (ctx : RequestContext) : CacheKeyInfo :=
  extractCacheKeyInfoV2 k.toKeyConfig ctx.chatRequest.messages ctx.tenantId
    (k.conversationId ctx.chatRequest)

/-- a request without tools that the policy lets through and that has a prompt is looked up -/
def KeyedConfig.looksUp (ctx : RequestContext) : Bool :=
  !ctx.chatRequest.messages.isEmpty && !ctx.hasTools && shouldCache k.policy ctx &&
    (k.keyInfo ctx).prompt ≠ ""

def ContextGet.request (q : ContextGet) : GetRequest :=
  ⟨(k.keyInfo q.ctx).prompt, q.ctx.chatRequest.model, (k.keyInfo q.ctx).partitionKey, q.now,
    q.nowShared⟩

def process (q : ContextGet) (w : World σ) : Option CacheHit × World σ :=
  if k.looksUp q.ctx then get cfg V (q.request k) w else (none, w)

section
variable (p : ContextPut)

def ContextPut.keyInfo : CacheKeyInfo :=
  extractCacheKeyInfoV2 k.toKeyConfig p.messages p.tenantId p.conversationId

def ContextPut.request : PutRequest :=
  ⟨(p.keyInfo k).prompt, p.response, p.model, (p.keyInfo k).partitionKey, p.now, p.nowCommit⟩

/-- the policy is asked about the model only -/
def KeyedConfig.stores : Bool :=
  !(k.policy.enabled && p.model ∈ k.policy.skipModels) && (p.keyInfo k).prompt ≠ ""

def putFromContext (w : World σ) : World σ :=
  if k.stores p then put cfg V (p.request k) w else w

end

inductive TenantCall where
  | putFromContext (p : ContextPut)
  | process (q : ContextGet)

def TenantCall.tenantId : TenantCall → String
  | .putFromContext p => p.tenantId
  | .process q => q.ctx.tenantId

def tenantStep (w : World σ) : TenantCall → World σ
  | .putFromContext p => putFromContext cfg k V p w
  | .process q => (process cfg k V q w).2

def afterTenants (v : σ) (l : List TenantCall) : World σ := Run.exec (tenantStep cfg k V) ⟨{}, v⟩ l

end

section
variable {cfg : CacheConfig} {k : KeyedConfig} {σ : Type} {V : VectorStore σ}

/-- the entry that a call has stored, used since or not -/
def ContextPut.Stored (k : KeyedConfig) (p : ContextPut) (e : CacheEntry) : Prop :=
  k.stores p ∧ ∃ id used, e = { (p.request k).entry id with lastAccessed := used }

lemma entries_stored (v : σ) (l : List TenantCall) :
    Each (fun e => ∃ p, .putFromContext p ∈ l ∧ p.Stored k e) (afterTenants cfg k V v l).cache := by
  refine Run.exec_inv_inputs (s := ⟨{}, v⟩) (I := fun l (w : World σ) =>
    Each (fun e => ∃ p, .putFromContext p ∈ l ∧ p.Stored k e) w.cache) each_empty
    (fun l w c hw => ?_) l
  have hw : Each (fun e => ∃ p, .putFromContext p ∈ l ++ [c] ∧ p.Stored k e) w.cache := by
    intro e he
    obtain ⟨p, hp, hstored⟩ := hw e he
    exact ⟨p, List.mem_append_left _ hp, hstored⟩
  cases c with
  | putFromContext p =>
    show Each _ (putFromContext cfg k V p w).cache
    unfold putFromContext
    split
    · next hstores =>
      exact hw.put _ ⟨p, by simp, hstores, _, p.nowCommit, rfl⟩
    · exact hw
  | process q =>
    show Each _ (process cfg k V q w).2.cache
    unfold process
    split
    · refine hw.get (fun e now he => ?_) _
      obtain ⟨p, hp, hstores, id, used, rfl⟩ := he
      exact ⟨p, hp, hstores, id, now, rfl⟩
    · exact hw

lemma process_hit {q : ContextGet} {hit : CacheHit} {w : World σ}
    (hhit : (process cfg k V q w).1 = some hit) :
    k.looksUp q.ctx ∧ ∃ e ∈ w.cache.entries.rows, e.response = hit.response ∧
      ¬ (q.ctx.chatRequest.model ≠ "" ∧ e.model ≠ "" ∧ e.model ≠ q.ctx.chatRequest.model) ∧
      (e.partitionKey = (k.keyInfo q.ctx).partitionKey ∨ cfg.crossTenant) := by
  unfold process at hhit
  split at hhit
  · next hlooks =>
    obtain ⟨e, he, hresponse, hmodel, hkey⟩ := get_answer hhit
    exact ⟨hlooks, e, he, hresponse, hmodel, hkey.imp And.right And.left⟩
  · cases hhit

lemma keyInfo_partitionKey {messages : List Message} {tenantId conversationId : String}
    (h : (extractCacheKeyInfoV2 k.toKeyConfig messages tenantId conversationId).prompt ≠ "") :
    (extractCacheKeyInfoV2 k.toKeyConfig messages tenantId conversationId).partitionKey =
      k.partitionKey messages tenantId conversationId := by
  unfold extractCacheKeyInfoV2 at h ⊢
  split at h
  · exact absurd rfl h
  · next hne => rw [if_neg hne]

lemma stores_partitionKey {p : ContextPut} (h : k.stores p) :
    (p.keyInfo k).partitionKey = k.partitionKey p.messages p.tenantId p.conversationId := by
  exact keyInfo_partitionKey (of_decide_eq_true (Bool.and_eq_true_iff.1 h).2)

lemma looksUp_partitionKey {ctx : RequestContext} (h : k.looksUp ctx) :
    (k.keyInfo ctx).partitionKey =
      k.partitionKey ctx.chatRequest.messages ctx.tenantId (k.conversationId ctx.chatRequest) := by
  exact keyInfo_partitionKey (of_decide_eq_true (Bool.and_eq_true_iff.1 h).2)

end

/-- With sharing between tenants off, an answer was stored for the same tenant and conversation, with
the same system prompt and context. -/
theorem answers_stay_with_tenant {σ : Type} (cfg : CacheConfig) (k : KeyedConfig) (V : VectorStore σ)
    (v : σ) (hoff : cfg.crossTenant = false) (l : List TenantCall)
    (hl : ∀ c ∈ l, unitSeparator ∉ c.tenantId.toList) (q : ContextGet)
    (hq : unitSeparator ∉ q.ctx.tenantId.toList) (hit : CacheHit)
    (hhit : (process cfg k V q (afterTenants cfg k V v l)).1 = some hit) :
    ∃ p, .putFromContext p ∈ l ∧ p.response = hit.response ∧ p.tenantId = q.ctx.tenantId ∧
      p.conversationId = k.conversationId q.ctx.chatRequest ∧
      systemHash k.sha p.messages = systemHash k.sha q.ctx.chatRequest.messages ∧
      k.contextHash p.messages = k.contextHash q.ctx.chatRequest.messages := by
  obtain ⟨hlooks, e, he, hresponse, -, hkey⟩ := process_hit hhit
  have hkey := hkey.resolve_right (by rw [hoff]; exact Bool.false_ne_true)
  obtain ⟨p, hp, hstores, id, used, rfl⟩ := entries_stored v l e he
  have hkeys : k.partitionKey p.messages p.tenantId p.conversationId =
      k.partitionKey q.ctx.chatRequest.messages q.ctx.tenantId
        (k.conversationId q.ctx.chatRequest) := by
    rw [← stores_partitionKey hstores, ← looksUp_partitionKey hlooks]
    exact hkey
  obtain ⟨htenant, hconversation, hsystem, hcontext⟩ := partitionKey_inj (hl _ hp) hq hkeys
  exact ⟨p, hp, hresponse, htenant, hconversation, hsystem, hcontext⟩

def hello : List Message := [{ role := "user", content := "hello" }]

def helloPut : ContextPut where
  messages := hello
  response := "hi"
  model := "m"
  tenantId := "t"
  conversationId := ""
  now := 0
  nowCommit := 0

def helloGet : ContextGet where
  ctx := { tenantId := "t", chatRequest := { model := "m", messages := hello } }
  now := 1
  nowShared := 1

theorem tenant_answered : ∃ p, .putFromContext p ∈ [TenantCall.putFromContext helloPut] ∧
    p.response = "hi" ∧ p.tenantId = "t" ∧
    p.conversationId = KeyedConfig.conversationId { sha := spelled } helloGet.ctx.chatRequest ∧
    systemHash spelled p.messages = systemHash spelled hello ∧
    KeyConfig.contextHash { sha := spelled } p.messages =
      KeyConfig.contextHash { sha := spelled } hello :=
  answers_stay_with_tenant smallCache { sha := spelled } oneFound () rfl
    [.putFromContext helloPut] (by decide) helloGet (by decide) ⟨"hi", "hello", 0⟩ (by decide)

end AegisGate.Cache
