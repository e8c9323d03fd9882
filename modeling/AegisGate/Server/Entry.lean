import AegisGate.Agent.Orchestrator
import AegisGate.Auth.Service
import AegisGate.Workflow.Engine
import AegisGate.Lib.Run
import Mathlib.Data.List.Infix

/-!
# The entry points

`ApiController` and the head of each `GatewayRuntime::process*`: what a request has to pass before
anything is done on its behalf.

* `validateApiKey`  the check of the controller, which passes every key when RBAC is on;
* `resolveContext`  the check of the chat and proxy paths, which asks the auth service;
* `handle`  a request up to the point where the work is handed on, or its error;
* `Invokes`  some connector, tool or node is called for the request.

What a chat or proxy request does behind its `resolve` is a field of the runtime and may be anything.
An agent request goes on in `Agent.Orchestrator`, a workflow in `Workflow.Engine`.  Building the
response is left out.
-/

namespace AegisGate.Server

open Workflow Agent

/-! ## requests and the runtime -/

structure Request where
  authorization : String := ""
  contentType : String := ""
  /-- the `X-AegisGate-Template` header -/
  template : String := ""
  body : String := ""

inductive Endpoint where
  | chatCompletions
  | proxy (path : String)
  | agentRun
  | workflowRun
  deriving DecidableEq, Repr

structure ProxyRequest where
  endpoint : String
  rawBody : String
  contentType : String
  model : String

structure Config where
  authEnabled : Bool := false
  agentEndpointEnabled : Bool := false
  agentMaxSteps : Int := 10
  agentMaxTotalTimeoutMs : Int := 120000
  workflowEndpointEnabled : Bool := false

/-- the members of `WorkflowEngine` that a run reads -/
structure WorkflowEngine where
  cfg : EngineConfig := {}
  hasSandbox : Bool := true
  hasCallback : Bool := true
  /-- `active_runs_`, without the run to come -/
  activeRuns : Int := 0
  autonomyEnabled : Bool := true

structure Runtime where
  initialized : Bool := true
  shuttingDown : Bool := false
  config : Config := {}
  auth : Option AuthService := none
  validApiKeyHashes : List String := []
  sha256 : String → String
  parse : String → Except String Json
  dump : Json → String
  /-- the text of a type error -/
  what : Json.TypeError → String
  orchestrator : Bool := false
  toolRegistry : Option (List ToolDefinition) := none
  toolSandbox : Option ToolSandbox := none
  fallback : Option Backend := none
  workflowEngine : Option WorkflowEngine := none
  requestId : String
  /-- the rest of `processRequest`, `processStreamingRequest` and `processProxyRequest` -/
  complete : Option AuthContext → ChatRequest → String → List Invocation
  stream : Option AuthContext → ChatRequest → String → List Invocation
  forward : Option AuthContext → ProxyRequest → List Invocation

inductive Dispatch where
  | chat (ctx : Option AuthContext) (req : ChatRequest) (template : String)
  | stream (ctx : Option AuthContext) (req : ChatRequest) (template : String)
  | proxy (ctx : Option AuthContext) (req : ProxyRequest)
  | agent (orch : Orchestrator) (input : String)
  | workflow (setup : Setup)

/-! ## the checks -/

def extractBearerToken (authorization : String) : String :=
  if authorization.toList.take 7 = "Bearer ".toList then
    String.ofList (authorization.toList.drop 7)
  else ""

def WorkflowEngine.setup (eng : WorkflowEngine) (sha256 : Json → String) (runId : String)
    (dsl : WorkflowDsl) (context : Json) : Setup where
  cfg := eng.cfg
  hasSandbox := eng.hasSandbox
  hasCallback := eng.hasCallback
  activeRuns := eng.activeRuns + 1
  autonomyEnabled := eng.autonomyEnabled
  sha256 := sha256
  runId := runId
  dsl := dsl
  context := context

def kMaxRequestBodySize : Nat := 1024 * 1024

def kMaxProxyBodySize : Nat := 25 * 1024 * 1024

namespace Runtime

variable (rt : Runtime)

def validateApiKey (key : String) : Bool :=
  if (rt.auth.map (·.rbac)).getD false then true
  else if rt.config.authEnabled = false then true
  else rt.validApiKeyHashes.any (rt.sha256 key = ·)

def require (c : Prop) [Decidable c] (e : GatewayError) : Except GatewayError Unit :=
  if c then .ok () else .error e

def shuttingDownError : GatewayError :=
  ⟨503, "shutting_down", "server_error", "Server is shutting down — retry with another instance"⟩

/-- `isInitialized` and `isShuttingDown`, the first lines of every handler -/
def available : Except GatewayError Unit := do
  require (rt.initialized) (makeError .notInitialized)
  require (rt.shuttingDown = false) shuttingDownError

def checkKey (key : String) : Except GatewayError Unit :=
  require (rt.validateApiKey key) (makeError .invalidApiKey)

def checkSize (limit : Nat) (body : String) : Except GatewayError Unit :=
  require ((bytes body).length ≤ limit) (makeError .payloadTooLarge)

def parseFailure (what : String) : GatewayError :=
  makeError .invalidRequest ("Failed to parse request: " ++ what)

/-- the body as JSON, and what is read from it; both may throw -/
def parseBody {α : Type} (read : Json → Except Json.TypeError α) (body : String) :
    Except GatewayError α :=
  match rt.parse body with
  | .error what => .error (parseFailure what)
  | .ok j => (read j).mapError (fun e => parseFailure (rt.what e))

/-- the context of a key on the chat and proxy paths -/
def resolveContext (key : String) : Except GatewayError (Option AuthContext) :=
  match rt.auth with
  | none => .ok none
  | some svc =>
    match svc.resolve key with
    | some ctx => .ok (some ctx)
    | none => if svc.rbac then .error (makeError .invalidApiKey) else .ok none

/-! ## the handlers -/

variable (req : Request)

def chatCompletions : Except GatewayError Dispatch := do
  rt.available
  let key := extractBearerToken req.authorization
  rt.checkKey key
  checkSize kMaxRequestBodySize req.body
  let chat ← rt.parseBody parseChatRequest req.body
  require (chat.messages.isEmpty = false)
    (makeError .missingRequiredField "messages field is required and must not be empty")
  let ctx ← rt.resolveContext key
  pure (if chat.stream then .stream ctx chat req.template else .chat ctx chat req.template)

/-- the model of a proxy request, best effort -/
def proxyModel (contentType body : String) : String :=
  if "application/json".toList <:+: contentType.toList then
    match rt.parse body with
    | .ok j => ((j.valueStr "model" "").toOption).getD ""
    | .error _ => ""
  else ""

def handleProxyEndpoint (endpoint : String) (req : Request) : Except GatewayError Dispatch := do
  rt.available
  let key := extractBearerToken req.authorization
  rt.checkKey key
  checkSize kMaxProxyBodySize req.body
  let contentType := if req.contentType = "" then "application/json" else req.contentType
  let ctx ← rt.resolveContext key
  pure (.proxy ctx ⟨endpoint, req.body, contentType, rt.proxyModel contentType req.body⟩)

structure AgentFields where
  model : String
  input : String
  maxSteps : Int

def agentFields (j : Json) : Except Json.TypeError AgentFields := do
  let model ← j.valueStr "model" ""
  let input ← j.valueStr "input" ""
  let maxSteps ← j.valueInt "max_steps" 0
  pure ⟨model, input, (Int32.ofInt maxSteps).toInt⟩

/-- a request may only tighten the budget -/
def agentBudget (maxSteps : Int) : Int :=
  if 0 < maxSteps ∧ maxSteps < rt.config.agentMaxSteps then maxSteps else rt.config.agentMaxSteps

def agentUnavailable (message : String) : GatewayError :=
  ⟨503, "agent_unavailable", "server_error", message⟩

def requestOrchestrator (tools : List ToolDefinition) (sandbox : ToolSandbox)
    (b : Backend) (f : AgentFields) : Orchestrator where
  config := ⟨rt.agentBudget f.maxSteps, rt.config.agentMaxTotalTimeoutMs⟩
  registry := some tools
  sandbox := some sandbox
  llmFn := some (llmOf b f.model)
  parse := rt.parse
  dump := rt.dump

def processAgentRequest (f : AgentFields) (key : String) : Except GatewayError Dispatch := do
  rt.checkKey key
  require (rt.config.agentEndpointEnabled)
    ⟨501, "agent_endpoint_disabled", "not_implemented", "Agent endpoint is disabled"⟩
  match rt.orchestrator, rt.toolRegistry, rt.toolSandbox with
  | true, some tools, some sandbox =>
    match rt.fallback with
    | none => .error (agentUnavailable "Model backend is not available")
    | some b => .ok (.agent (rt.requestOrchestrator tools sandbox b f) f.input)
  | _, _, _ => .error (agentUnavailable "Agent orchestration is not available")

def agentRun : Except GatewayError Dispatch := do
  rt.available
  checkSize kMaxRequestBodySize req.body
  let f ← rt.parseBody agentFields req.body
  require (f.input ≠ "")
    (makeError .missingRequiredField "input field is required and must not be empty")
  rt.processAgentRequest f (extractBearerToken req.authorization)

def processWorkflowRequest (workflow context : Json) (key : String) :
    Except GatewayError Dispatch := do
  rt.checkKey key
  require (rt.config.workflowEndpointEnabled)
    ⟨501, "workflow_endpoint_disabled", "not_implemented", "Workflow endpoint is disabled"⟩
  match rt.workflowEngine with
  | none =>
    .error ⟨503, "workflow_unavailable", "server_error", "Workflow engine is not available"⟩
  | some eng =>
    match fromJson workflow with
    | none =>
      .error ⟨400, "invalid_workflow_dsl", "invalid_request_error", "Malformed workflow DSL"⟩
    | some dsl =>
      .ok (.workflow (eng.setup (fun j => rt.sha256 (rt.dump j)) rt.requestId dsl
        (if context.isNull then .obj [] else context)))

def workflowRun : Except GatewayError Dispatch := do
  rt.available
  checkSize kMaxRequestBodySize req.body
  let j ← rt.parseBody pure req.body
  match j.find? "workflow" with
  | none => .error (makeError .missingRequiredField "workflow field is required")
  | some workflow =>
    rt.processWorkflowRequest workflow ((j.find? "context").getD .null)
      (extractBearerToken req.authorization)

def handle (ep : Endpoint) (req : Request) : Except GatewayError Dispatch :=
  match ep with
  | .chatCompletions => rt.chatCompletions req
  | .proxy path => rt.handleProxyEndpoint path req
  | .agentRun => rt.agentRun req
  | .workflowRun => rt.workflowRun req

end Runtime

/-! ## what a request sets in motion -/

/-- some node of a run of the engine is in the hands of a worker -/
def StartsNode (S : Setup) : Prop :=
  ∃ env st s, Run.Reach (Step env S) (init S st) s ∧ s.1.running ≠ []

def Dispatch.Invokes (rt : Runtime) : Dispatch → Prop
  | .chat ctx req template => rt.complete ctx req template ≠ []
  | .stream ctx req template => rt.stream ctx req template ≠ []
  | .proxy ctx req => rt.forward ctx req ≠ []
  | .agent orch input => ∃ clock : Nat → ℚ, (∀ k, 0 ≤ clock k) ∧ (orch.run clock input).1 ≠ []
  | .workflow S => StartsNode S

def Invokes (rt : Runtime) (ep : Endpoint) (req : Request) : Prop :=
  ∃ d, rt.handle ep req = .ok d ∧ d.Invokes rt

def Resolved (rt : Runtime) (req : Request) : Prop :=
  ∃ svc, rt.auth = some svc ∧ (svc.resolve (extractBearerToken req.authorization)).isSome

/-- nothing is called for a request without a context -/
def Mediated (rt : Runtime) (ep : Endpoint) (req : Request) : Prop :=
  Invokes rt ep req → Resolved rt req

end AegisGate.Server
