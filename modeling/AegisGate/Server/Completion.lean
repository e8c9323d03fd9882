import AegisGate.Auth.Models
import AegisGate.Core.Pipeline
import AegisGate.Gateway.StreamFallback

/-!
# From the routed model to the answer

The second half of `GatewayRuntime::processRequest` and `processStreamingRequest`: the router selects a
model, the tenant's whitelist is checked, the model or one of its fallbacks is called, and the answer
goes through the outbound pipeline, the cost tracker and the semantic cache.

* `route`  the selected model as `target_model`, or the error of the request;
* `Outbound.execute`  the outbound stages, with the cost tracker in its place among them;
* `completeTarget`, `streamTarget`  the two paths after routing, with all that they record.

The metrics are left out.  A stage other than the cost tracker sees the whole context and may change
the response and decide; it does not change the target model.
-/

namespace AegisGate.Server

/-! ## routing -/

/-- an error that is answered, or an exception that leaves the function -/
inductive RequestFailure where
  | error (e : GatewayError)
  | thrown (e : Json.TypeError)

def isModelAllowed (tenant : Tenant) (model : String) : Bool :=
  if tenant.modelWhitelist.isEmpty then true else tenant.modelWhitelist.any (· = model)

def requestTimeout : GatewayError :=
  makeError .upstreamTimeout "Gateway request timeout exceeded before upstream call"

def route (router : Router) (registry : ConnectorRegistry) (tenant : Option Tenant)
    (timedOut : Bool) (ctx : RequestContext) : Except RequestFailure RequestContext :=
  match router registry ctx with
  | .error e => .error (.thrown e)
  | .ok (model, ctx) =>
    if model = "" then .error (.error (makeError .noModelAvailable))
    else if tenant.any (!isModelAllowed · model) then
      .error (.error (makeError .modelNotAllowed))
    else if timedOut then .error (.error requestTimeout)
    else .ok { ctx with targetModel := model }

/-! ## the cost tracker -/

structure ModelPricing where
  costPer1kInput : ℚ
  costPer1kOutput : ℚ

structure CostRecord where
  requestId : String := ""
  tenantId : String := ""
  appId : String := ""
  model : String
  inputTokens : Int
  outputTokens : Int
  inputCost : ℚ
  outputCost : ℚ
  totalCost : ℚ
  routingDecisionReason : String := ""

/-- a model without a price costs nothing -/
def calculate (pricing : List (String × ModelPricing)) (model : String)
    (inputTokens outputTokens : Int) : CostRecord :=
  let price := (pricing.lookup model).getD ⟨0, 0⟩
  let inputCost := inputTokens / 1000 * price.costPer1kInput
  let outputCost := outputTokens / 1000 * price.costPer1kOutput
  { model := model
    inputTokens := inputTokens
    outputTokens := outputTokens
    inputCost := inputCost
    outputCost := outputCost
    totalCost := inputCost + outputCost }

/-- `CostTracker::process` -/
def trackCost (pricing : List (String × ModelPricing)) (ctx : RequestContext) : CostRecord :=
  { calculate pricing (if ctx.targetModel = "" then ctx.chatRequest.model else ctx.targetModel)
      ctx.tokenUsage.promptTokens ctx.tokenUsage.completionTokens with
    requestId := ctx.requestId
    tenantId := ctx.tenantId
    appId := ctx.appId
    routingDecisionReason := ctx.routingDecisionReason }

/-! ## the outbound pipeline -/

/-- what a stage leaves in `accumulated_response`, and its verdict -/
abbrev OutboundStage := RequestContext → String × StageResult

/-- `Pipeline::execute` -/
def executeStages : List OutboundStage → RequestContext → RequestContext × PipelineResult
  | [], ctx => (ctx, .success)
  | stage :: rest, ctx =>
    match stage ctx with
    | (response, .continue) => executeStages rest { ctx with accumulatedResponse := response }
    | (response, .shortCircuit) =>
      ({ ctx with accumulatedResponse := response }, .shortCircuited)
    | (response, .reject) => ({ ctx with accumulatedResponse := response }, .rejected)
    | (response, .error) => ({ ctx with accumulatedResponse := response }, .error)

/-- the stages before and after the cost tracker -/
structure Outbound where
  beforeCost : List OutboundStage := []
  pricing : List (String × ModelPricing) := []
  afterCost : List OutboundStage := []

def Outbound.execute (o : Outbound) (ctx : RequestContext) :
    RequestContext × PipelineResult × List CostRecord :=
  match executeStages o.beforeCost ctx with
  | (ctx, .success) =>
    ((executeStages o.afterCost ctx).1, (executeStages o.afterCost ctx).2,
      [trackCost o.pricing ctx])
  | (ctx, result) => (ctx, result, [])

/-! ## the semantic cache -/

structure CacheEntry where
  prompt : String
  response : String
  model : String
  partitionKey : String

structure SemanticCache where
  policyEnabled : Bool := false
  skipModels : List String := []
  /-- the conversation of a request, when there is a resolver -/
  resolve : Option (ChatRequest → String) := none
  /-- prompt and partition for messages, tenant and conversation -/
  keyInfo : List Message → String → String → String × String

/-- the entry that is put, if any -/
def SemanticCache.putFromContext (cache : SemanticCache) (messages : List Message)
    (response model tenantId conversationId : String) : Option CacheEntry :=
  if cache.policyEnabled && cache.skipModels.any (model = ·) then none
  else
    match cache.keyInfo messages tenantId conversationId with
    | (prompt, partitionKey) =>
      if prompt = "" then none else some ⟨prompt, response, model, partitionKey⟩

/-- the write of `finalizeNonStreamingResponse`, and the same one at the end of a stream -/
def cacheResponse (cache : Option SemanticCache) (ctx : RequestContext) : List CacheEntry :=
  match cache with
  | none => []
  | some c =>
    if ctx.chatRequest.messages.isEmpty || ctx.hasTools then []
    else
      (c.putFromContext ctx.chatRequest.messages ctx.accumulatedResponse ctx.targetModel
        ctx.tenantId ((c.resolve.map (· ctx.chatRequest)).getD "")).toList

/-! ## the two paths -/

structure Gateway (σ : Type) where
  router : Router
  fallback : FallbackManager
  outbound : Outbound := {}
  /-- the outbound stages as they see the chunks of a stream -/
  chunkStages : List (ChunkStage σ × σ) := []
  semanticCache : Option SemanticCache := none

/-- what happened for a request: calls, outcomes reported to the router, costs, cache entries, and
the answer -/
structure Handled (α : Type) where
  invocations : List Invocation
  outcomes : List (String × Bool) := []
  costs : List CostRecord := []
  cached : List CacheEntry := []
  answer : Except RequestFailure α

structure ChatResponse where
  id : String
  content : String
  usage : TokenUsage

/-- status and code for an upstream status -/
def mapUpstreamStatus (status : Int) : Nat × ErrorCode :=
  if status = 408 ∨ status = 504 then (504, .upstreamTimeout)
  else if status < 400 ∨ 599 < status then (502, .upstreamError)
  else (status.toNat, .upstreamError)

def upstreamError : UpstreamFailure → GatewayError
  | .noHealthyKeys _ => makeError .noHealthyKeys
  | .circuitBreakerOpen _ => makeError .circuitBreakerOpen
  | .upstreamStatus status _ =>
    { makeError (mapUpstreamStatus status).2 ("Upstream returned " ++ toString status) with
      httpStatus := (mapUpstreamStatus status).1 }
  | .other _ => makeError .upstreamError

/-- the token counts of the connector that was called last -/
def servedUsage (u : Upstream) (messages : List Message) (h : List Invocation) : TokenUsage :=
  match h.getLast? with
  | some (.connector model) => u.usage h.dropLast model messages
  | _ => {}

section
variable {σ : Type} (g : Gateway σ) (u : Upstream) (stages : List OutboundStage) (o : Outbound)
  (ctx : RequestContext)

def completeTarget (ctx : RequestContext) (h : List Invocation) : Handled ChatResponse :=
  let run := g.fallback.executeWithFallback u ctx.chatRequest.messages ctx.targetModel h
  match run.2 with
  | .error e =>
    { invocations := run.1
      outcomes := [(ctx.targetModel, false)]
      answer := .error (.error (upstreamError e)) }
  | .ok content =>
    let usage := servedUsage u ctx.chatRequest.messages run.1
    let out := g.outbound.execute { ctx with tokenUsage := usage, accumulatedResponse := content }
    if out.2.1 = .rejected then
      { invocations := run.1
        outcomes := [(ctx.targetModel, true)]
        costs := out.2.2
        answer := .error (.error (makeError .contentFiltered)) }
    else
      { invocations := run.1
        outcomes := [(ctx.targetModel, true)]
        costs := out.2.2
        cached := cacheResponse g.semanticCache out.1
        answer := .ok ⟨ctx.requestId, out.1.accumulatedResponse, usage⟩ }

def rejectsChunk (deltas : List StreamDelta) : Bool :=
  (deltas.foldl (fun st d => (Pipeline.onDelta st (bytes d.content)).1)
    ({ stages := g.chunkStages } : Pipeline.StreamState σ)).streamRejected

/-- `processStreamingRequest` after routing; a rejected stream is not reported to the router -/
def streamTarget (ctx : RequestContext) (h : List Invocation) : Handled TokenUsage :=
  let run := g.fallback.streamWithFallback u ctx.chatRequest.messages ctx.targetModel h
  match run.ending with
  | .error e =>
    { invocations := run.invocations
      outcomes := [(ctx.targetModel, false)]
      answer := .error (.error e.error) }
  | .ok usage =>
    let out := g.outbound.execute { ctx with
      tokenUsage := usage
      accumulatedResponse := String.join (run.deltas.map (·.content))
      streamRejected := rejectsChunk g run.deltas }
    if out.1.streamRejected || out.2.1 = .rejected then
      { invocations := run.invocations
        costs := out.2.2
        answer := .error (.error (makeError .contentFiltered)) }
    else
      { invocations := run.invocations
        outcomes := [(out.1.targetModel, true)]
        costs := out.2.2
        cached := cacheResponse g.semanticCache out.1
        answer := .ok usage }

/-- the request is routed and then handled by `k`, or answered with the error of routing -/
def routed {α : Type} (k : RequestContext → List Invocation → Handled α)
    (tenant : Option Tenant) (timedOut : Bool) (ctx : RequestContext) (h : List Invocation) :
    Handled α :=
  match route g.router g.fallback.registry tenant timedOut ctx with
  | .error e => { invocations := h, answer := .error e }
  | .ok ctx => k ctx h

def processRequest : Option Tenant → Bool → RequestContext → List Invocation →
    Handled ChatResponse :=
  routed g (completeTarget g u)

def processStreamingRequest : Option Tenant → Bool → RequestContext → List Invocation →
    Handled TokenUsage :=
  routed g (streamTarget g u)

/-! ## what the parts keep -/

lemma completeTarget_invocations (h : List Invocation) :
    (completeTarget g u ctx h).invocations =
      (g.fallback.executeWithFallback u ctx.chatRequest.messages ctx.targetModel h).1 := by
  unfold completeTarget
  dsimp only
  split
  · rfl
  · split <;> rfl

lemma streamTarget_invocations (h : List Invocation) :
    (streamTarget g u ctx h).invocations =
      (g.fallback.streamWithFallback u ctx.chatRequest.messages ctx.targetModel h).invocations := by
  unfold streamTarget
  dsimp only
  split
  · rfl
  · split <;> rfl

lemma executeStages_response : ∀ ctx, ∃ response,
    (executeStages stages ctx).1 = { ctx with accumulatedResponse := response } := by
  induction stages with
  | nil => exact fun ctx => ⟨ctx.accumulatedResponse, rfl⟩
  | cons stage stages ih =>
    intro ctx
    rw [executeStages]
    split
    · exact ih _
    all_goals exact ⟨_, rfl⟩

lemma execute_response : ∃ response,
    (o.execute ctx).1 = { ctx with accumulatedResponse := response } := by
  obtain ⟨response, hbefore⟩ := executeStages_response o.beforeCost ctx
  unfold Outbound.execute
  split
  · next ctx' e =>
    obtain rfl : ctx' = { ctx with accumulatedResponse := response } := by
      rw [e] at hbefore
      exact hbefore
    exact executeStages_response o.afterCost _
  · next ctx' result _ e =>
    rw [e] at hbefore
    exact ⟨response, hbefore⟩

lemma executeStages_targetModel : (executeStages stages ctx).1.targetModel = ctx.targetModel := by
  obtain ⟨response, h⟩ := executeStages_response stages ctx
  rw [h]

lemma execute_targetModel : (o.execute ctx).1.targetModel = ctx.targetModel := by
  obtain ⟨response, h⟩ := execute_response o ctx
  rw [h]

lemma execute_costs {o : Outbound} {ctx : RequestContext} {record : CostRecord} {model : String}
    (hr : record ∈ (o.execute ctx).2.2) (hmodel : ctx.targetModel = model) (hne : model ≠ "") :
    record.model = model := by
  have hbefore := executeStages_targetModel o.beforeCost ctx
  unfold Outbound.execute at hr
  split at hr
  · rename_i ctx' e
    rw [e] at hbefore
    have htarget : ctx'.targetModel = model := hbefore.trans hmodel
    rw [List.mem_singleton.1 hr, ← htarget]
    exact if_neg (by rw [htarget]; exact hne)
  · cases hr

lemma cacheResponse_entry {cache : Option SemanticCache} {ctx : RequestContext}
    {entry : CacheEntry} (he : entry ∈ cacheResponse cache ctx) :
    entry.model = ctx.targetModel ∧ entry.response = ctx.accumulatedResponse := by
  unfold cacheResponse at he
  split at he
  · cases he
  split at he
  · cases he
  · rw [Option.mem_toList, SemanticCache.putFromContext] at he
    split at he
    · cases he
    · dsimp only at he
      split at he <;> cases he
      exact ⟨rfl, rfl⟩

end

lemma route_inv {router : Router} {registry : ConnectorRegistry} {tenant : Option Tenant}
    {timedOut : Bool} {ctx ctx' : RequestContext}
    (h : route router registry tenant timedOut ctx = .ok ctx') : ∃ model ctx0,
      router registry ctx = .ok (model, ctx0) ∧ model ≠ "" ∧
        (∀ t, tenant = some t → isModelAllowed t model) ∧
        ctx' = { ctx0 with targetModel := model } := by
  unfold route at h
  split at h
  · cases h
  · next model ctx0 hrouter =>
    split at h
    · cases h
    · next hne =>
      split at h
      · cases h
      · next hallowed =>
        split at h
        · cases h
        · cases h
          refine ⟨model, ctx0, hrouter, hne, ?_, rfl⟩
          rintro t rfl
          simpa using hallowed

end AegisGate.Server
