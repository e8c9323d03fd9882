import AegisGate.Cache.Tenants
import AegisGate.Server.Completion

/-!
# Which answers are cached

A request is looked up in the cache only if `shouldCache` holds for it: the policy may exclude the
requested model, high temperatures and streams.  The answer is written by `putFromContext`, which asks
the policy about the routed model only.

* `serverCache`  the cache of the gateway with its policy and its keys;
* `opened`  the context of a request as the gateway makes it;
* `OnlyAdmissible`  whatever the routing and the fallbacks do, nothing is written for a request that
  the policy excludes or that has tools.

`cached_admissible_iff` says for which requests and routed models that is so, on both paths.
-/

namespace AegisGate.Server

open Cache

def hasToolsRequest (req : ChatRequest) : Bool :=
  match req.tools with
  | .null => false
  | .arr l => !l.isEmpty
  | .obj l => !l.isEmpty
  | _ => true

def opened (ctx : RequestContext) : RequestContext :=
  { ctx with hasTools := hasToolsRequest ctx.chatRequest }

def serverCache (k : KeyedConfig) : SemanticCache where
  policyEnabled := k.policy.enabled
  skipModels := k.policy.skipModels
  resolve := if k.hasResolver then some (resolve k.sha) else none
  keyInfo messages tenantId conversationId :=
    let info := extractCacheKeyInfoV2 k.toKeyConfig messages tenantId conversationId
    (info.prompt, info.partitionKey)

def cachedBy {σ : Type} (streaming : Bool) (g : Gateway σ) (u : Upstream) (tenant : Option Tenant)
    (timedOut : Bool) (ctx : RequestContext) (h : List Invocation) : List CacheEntry :=
  if streaming then (processStreamingRequest g u tenant timedOut ctx h).cached
  else (processRequest g u tenant timedOut ctx h).cached

/-- the router picks `model` and leaves alone what the cache reads -/
def RoutesTo (router : Router) (ctx : RequestContext) (model : String) : Prop :=
  ∀ registry m ctx', router registry ctx = .ok (m, ctx') →
    m = model ∧ ctx'.chatRequest.messages = ctx.chatRequest.messages ∧ ctx'.hasTools = ctx.hasTools

def OnlyAdmissible (k : KeyedConfig) (streaming : Bool) (ctx : RequestContext)
    (model : String) : Prop :=
  ∀ (σ : Type) (g : Gateway σ) (u : Upstream) (tenant : Option Tenant) (timedOut : Bool)
    (h : List Invocation), g.semanticCache = some (serverCache k) → RoutesTo g.router ctx model →
      ∀ entry ∈ cachedBy streaming g u tenant timedOut ctx h,
        shouldCache k.policy ctx ∧ hasToolsRequest ctx.chatRequest = false

/-- nothing is written for the request when it is routed to the model -/
def Unwritten (k : KeyedConfig) (ctx : RequestContext) (model : String) : Prop :=
  model = "" ∨ (k.policy.enabled ∧ model ∈ k.policy.skipModels) ∨ ctx.hasTools ∨
    ctx.chatRequest.messages = [] ∨ promptOf ctx.chatRequest.messages = ""

/-! ## what is written -/

section
variable {k : KeyedConfig} {ctx : RequestContext} {model : String} {h : List Invocation}
  {timedOut streaming : Bool} {tenant : Option Tenant}

lemma keyInfo_prompt (messages : List Message) (tenantId conversationId : String) :
    ((serverCache k).keyInfo messages tenantId conversationId).1 = promptOf messages := by
  cases messages with
  | nil | cons m ms => rfl

lemma putFromContext_eq_none_iff (messages : List Message)
    (response model tenantId conversationId : String) :
    (serverCache k).putFromContext messages response model tenantId conversationId = none ↔
      (k.policy.enabled ∧ model ∈ k.policy.skipModels) ∨ promptOf messages = "" := by
  have hskip : (k.policy.enabled && k.policy.skipModels.any (model = ·)) ↔
      k.policy.enabled ∧ model ∈ k.policy.skipModels := by
    simp
  have hprompt := keyInfo_prompt (k := k) messages tenantId conversationId
  rw [← hprompt]
  show (if (k.policy.enabled && k.policy.skipModels.any (model = ·)) then none else _) = _ ↔ _
  split
  · next hs => exact ⟨fun _ => .inl (hskip.1 hs), fun _ => rfl⟩
  · next hs =>
    dsimp only
    split
    · next he => exact ⟨fun _ => .inr he, fun _ => rfl⟩
    · next he =>
      refine ⟨nofun, fun h => ?_⟩
      rcases h with h | h
      · exact absurd (hskip.2 h) hs
      · exact absurd h he

lemma cacheResponse_eq_nil_iff (k : KeyedConfig) (ctx : RequestContext) :
    cacheResponse (some (serverCache k)) ctx = [] ↔
      (k.policy.enabled ∧ ctx.targetModel ∈ k.policy.skipModels) ∨ ctx.hasTools ∨
        ctx.chatRequest.messages = [] ∨ promptOf ctx.chatRequest.messages = "" := by
  unfold cacheResponse
  dsimp only
  split
  · next hout =>
    have hout : ctx.chatRequest.messages = [] ∨ ctx.hasTools := by simpa using hout
    refine ⟨fun _ => .inr ?_, fun _ => rfl⟩
    rcases hout with hout | hout
    · exact .inr (.inl hout)
    · exact .inl hout
  · next hin =>
    obtain ⟨hmessages, htools⟩ : ctx.chatRequest.messages ≠ [] ∧ ctx.hasTools = false := by
      simpa using hin
    rw [Option.toList_eq_nil_iff, putFromContext_eq_none_iff]
    simp only [hmessages, htools, Bool.false_eq_true, false_or]

variable {σ : Type} {g : Gateway σ} {u : Upstream} {entry : CacheEntry}

lemma mem_completeTarget_cached (he : entry ∈ (completeTarget g u ctx h).cached) :
    ∃ usage response, entry ∈ cacheResponse g.semanticCache
        { ctx with tokenUsage := usage, accumulatedResponse := response } := by
  unfold completeTarget at he
  dsimp only at he
  split at he
  · cases he
  · next content _ =>
    split at he
    · cases he
    · obtain ⟨response, hout⟩ := execute_response g.outbound { ctx with
        tokenUsage := servedUsage u ctx.chatRequest.messages
          (g.fallback.executeWithFallback u ctx.chatRequest.messages ctx.targetModel h).1
        accumulatedResponse := content }
      rw [hout] at he
      exact ⟨_, response, he⟩

lemma mem_streamTarget_cached (he : entry ∈ (streamTarget g u ctx h).cached) :
    ∃ usage response rejected, entry ∈ cacheResponse g.semanticCache
        { ctx with tokenUsage := usage, accumulatedResponse := response,
                   streamRejected := rejected } := by
  unfold streamTarget at he
  dsimp only at he
  split at he
  · cases he
  · next usage _ =>
    split at he
    · cases he
    · obtain ⟨response, hout⟩ := execute_response g.outbound { ctx with
        tokenUsage := usage
        accumulatedResponse := String.join
          ((g.fallback.streamWithFallback u ctx.chatRequest.messages ctx.targetModel h).deltas.map
            (·.content))
        streamRejected := rejectsChunk g
          (g.fallback.streamWithFallback u ctx.chatRequest.messages ctx.targetModel h).deltas }
      rw [hout] at he
      exact ⟨_, response, _, he⟩

/-- on both paths an entry is written for a context with the request's messages and tools and the
routed model -/
lemma mem_cachedBy (hrouter : RoutesTo g.router ctx model)
    (he : entry ∈ cachedBy streaming g u tenant timedOut ctx h) :
    model ≠ "" ∧ ∃ ctx', entry ∈ cacheResponse g.semanticCache ctx' ∧ ctx'.targetModel = model ∧
      ctx'.chatRequest.messages = ctx.chatRequest.messages ∧ ctx'.hasTools = ctx.hasTools := by
  cases hroute : route g.router g.fallback.registry tenant timedOut ctx with
  | error e =>
    unfold cachedBy processRequest processStreamingRequest routed at he
    rw [hroute] at he
    split at he <;> cases he
  | ok ctx' =>
    obtain ⟨m, ctx0, hpicked, hne, -, rfl⟩ := route_inv hroute
    obtain ⟨rfl, hmessages, htools⟩ := hrouter _ _ _ hpicked
    refine ⟨hne, ?_⟩
    unfold cachedBy processRequest processStreamingRequest routed at he
    rw [hroute] at he
    split at he
    · obtain ⟨usage, response, rejected, he⟩ := mem_streamTarget_cached he
      exact ⟨_, he, rfl, hmessages, htools⟩
    · obtain ⟨usage, response, he⟩ := mem_completeTarget_cached he
      exact ⟨_, he, rfl, hmessages, htools⟩

lemma not_unwritten (hcache : g.semanticCache = some (serverCache k))
    (hrouter : RoutesTo g.router ctx model)
    (he : entry ∈ cachedBy streaming g u tenant timedOut ctx h) : ¬ Unwritten k ctx model := by
  obtain ⟨hne, ctx', he, rfl, hmessages, htools⟩ := mem_cachedBy hrouter he
  rw [hcache] at he
  have hwritten := mt (cacheResponse_eq_nil_iff k ctx').2 (List.ne_nil_of_mem he)
  rw [hmessages, htools] at hwritten
  exact fun h => h.elim hne hwritten

end

/-! ## a gateway that writes -/

variable (k : KeyedConfig)

def writing (model : String) : Gateway Unit where
  router := fun _ ctx => .ok (model, ctx)
  fallback := { registry := { connectors := [⟨"p", fun _ => true⟩] }, chains := [] }
  semanticCache := some (serverCache k)

def answers : Upstream where
  allowRequest _ _ := true
  complete _ _ _ := .ok "hi"
  usage _ _ _ := {}
  streamComplete _ _ _ := ([{ content := "hi" }], .ok {})

lemma cachedBy_writing {model : String} (hmodel : model ≠ "")
    (streaming : Bool) (ctx : RequestContext) : ∃ ctx',
      cachedBy streaming (writing k model) answers none false ctx [] =
        cacheResponse (some (serverCache k)) ctx' ∧ ctx'.targetModel = model ∧
      ctx'.chatRequest.messages = ctx.chatRequest.messages ∧ ctx'.hasTools = ctx.hasTools := by
  have hroute : route (writing k model).router (writing k model).fallback.registry none false ctx =
      .ok { ctx with targetModel := model } := by
    show (if model = "" then _ else _) = _
    rw [if_neg hmodel]
    rfl
  unfold cachedBy processRequest processStreamingRequest routed
  rw [hroute]
  split <;> exact ⟨_, rfl, rfl, rfl, rfl⟩

lemma cachedBy_ne_nil {k : KeyedConfig} {model : String} {ctx : RequestContext}
    (h : ¬ Unwritten k ctx model) (streaming : Bool) :
    cachedBy streaming (writing k model) answers none false ctx [] ≠ [] := by
  have hmodel : model ≠ "" := fun he => h (.inl he)
  obtain ⟨ctx', e, htarget, hmessages, htools⟩ := cachedBy_writing k hmodel streaming ctx
  rw [e]
  intro hnil
  have hnil := (cacheResponse_eq_nil_iff k ctx').1 hnil
  rw [htarget, hmessages, htools] at hnil
  exact h (.inr hnil)

/-- Nothing is written for an excluded request, whatever happens to it after routing, exactly when the
request is not excluded or nothing can be written for it. -/
theorem cached_admissible_iff (streaming : Bool) (ctx : RequestContext)
    (model : String) : OnlyAdmissible k streaming (opened ctx) model ↔
      shouldCache k.policy ctx ∨ Unwritten k (opened ctx) model := by
  constructor
  · intro hall
    by_contra hnot
    obtain ⟨hexcluded, hwritten⟩ := not_or.1 hnot
    obtain ⟨entry, he⟩ := List.exists_mem_of_ne_nil _ (cachedBy_ne_nil hwritten streaming)
    exact hexcluded (hall Unit (writing k model) answers none false [] rfl
      (fun _ _ _ h => by cases h; exact ⟨rfl, rfl, rfl⟩) entry he).1
  · intro h σ g u tenant timedOut calls hcache hrouter entry he
    have hwritten := not_unwritten hcache hrouter he
    have htools : hasToolsRequest ctx.chatRequest = false := by
      by_contra ht
      exact hwritten (.inr (.inr (.inl (eq_true_of_ne_false ht))))
    exact ⟨h.resolve_right hwritten, htools⟩

def cautious : KeyedConfig where
  sha := spelled
  policy := { enabled := true }

def heated : RequestContext :=
  { chatRequest := { model := "m", messages := hello, temperature := some 2 } }

/-- a request at temperature 2 is not looked up, and its answer is cached on both paths -/
theorem heated_answer_cached :
    shouldCache cautious.policy (opened heated) = false ∧
      (cachedBy false (writing cautious "m") answers none false (opened heated) []).map
        (fun e => (e.prompt, e.response, e.model)) = [("hello", "hi", "m")] ∧
      (cachedBy true (writing cautious "m") answers none false (opened heated) []).map
        (fun e => (e.prompt, e.response, e.model)) = [("hello", "hi", "m")] :=
  ⟨by decide +kernel, by decide +kernel, by decide +kernel⟩

end AegisGate.Server
