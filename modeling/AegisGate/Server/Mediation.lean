import AegisGate.Server.Entry
import AegisGate.Workflow.Termination
import Mathlib.Algebra.Order.Ring.Cast
import Mathlib.Algebra.Order.Ring.Rat

/-!
# Which requests set something in motion

With RBAC the controller lets every key through, and leaves the rest to `resolve`.  The chat and the
proxy path do resolve the token.  The agent and the workflow path do not: they go on with any header.

* `startsNode_iff`  a run of the engine starts a node exactly when it is accepted and has one;
* `agentRun_invokes_iff`, `workflowRun_invokes_iff`  when these requests call something.
-/

namespace AegisGate.Server

open Workflow Server.Runtime Json

/-! ## nodes of a workflow -/

section
variable {S : Setup}

lemma books_of_reach {env : Env} {st : Store} {s : Exec × Store}
    (h : Run.Reach (Step env S) (init S st) s) :
    ∃ done lost stalled, Books S s.1 done lost stalled := by
  refine Run.Reach.inv (I := fun s => ∃ done lost stalled, Books S s.1 done lost stalled)
    ?_ h ⟨[], [], [], books_init S⟩
  rintro ⟨x, st⟩ ⟨x', st'⟩ ⟨done, lost, stalled, hb⟩ ⟨e, -, hstep⟩
  obtain ⟨done', lost', stalled', hb', -⟩ := (moves_of_step hstep).1.books hb
  exact ⟨done', lost', stalled', hb'⟩

theorem startsNode_iff (S : Setup) : StartsNode S ↔ preflight S = .creating ∧ S.dsl.nodes ≠ [] := by
  constructor
  · rintro ⟨env, st, s, hreach, hrunning⟩
    constructor
    · by_contra hpre
      have hrefused : Refused S s.1 := Run.Reach.inv (I := fun s => Refused S s.1)
        (fun _ _ hs hst => hs.step hpre hst) hreach ⟨rfl, rfl, rfl, rfl, rfl⟩
      exact hrunning hrefused.running
    · intro hnodes
      obtain ⟨done, lost, stalled, hb⟩ := books_of_reach hreach
      exact hrunning (hb.running_of_no_nodes hnodes)
  · rintro ⟨hpre, hnodes⟩
    obtain ⟨id, rest, hroots⟩ := List.exists_cons_of_ne_nil
      (roots_ne_nil S.dsl (preflight_eq_creating_iff.1 hpre).2.2.1 hnodes)
    obtain ⟨t, ht, hrunning, -⟩ := reach_first_node hpre hroots {}
    exact ⟨_, _, t, ht, by simp [hrunning]⟩

end

structure WorkflowEngine.Accepts (eng : WorkflowEngine) (dsl : WorkflowDsl) : Prop where
  room : eng.activeRuns < eng.cfg.maxConcurrentRuns
  autonomy : eng.autonomyEnabled
  acyclic : validateNoCycle dsl
  sandboxed : validateNoSandboxBypass none dsl = []

lemma startsNode_setup_iff {eng : WorkflowEngine} {sha256 : Json → String} {runId : String}
    {dsl : WorkflowDsl} {context : Json} :
    StartsNode (eng.setup sha256 runId dsl context) ↔ eng.Accepts dsl ∧ dsl.nodes ≠ [] := by
  rw [startsNode_iff, preflight_eq_creating_iff]
  show (eng.activeRuns + 1 ≤ eng.cfg.maxConcurrentRuns ∧ _) ∧ _ ↔ _
  constructor
  all_goals
    rintro ⟨⟨hroom, hautonomy, hcycle, hbypass⟩, hnodes⟩
    exact ⟨⟨by omega, hautonomy, hcycle, hbypass⟩, hnodes⟩

/-! ## the paths that do not -/

section
variable {rt : Runtime} {svc : AuthService} {req : Request} {d : Dispatch}

structure Runtime.Up (rt : Runtime) : Prop where
  initialized : rt.initialized
  serving : rt.shuttingDown = false

lemma require_eq_ok_iff {c : Prop} [Decidable c] {e : GatewayError} {u : Unit} :
    require c e = .ok u ↔ c := by
  unfold require
  split <;> simp_all

lemma available_eq_ok_iff {u : Unit} : rt.available = .ok u ↔ rt.Up := by
  constructor
  · intro h
    obtain ⟨_, hinit, hserving⟩ := bind_eq_ok h
    exact ⟨require_eq_ok_iff.1 hinit, require_eq_ok_iff.1 hserving⟩
  · rintro ⟨hinit, hserving⟩
    simp only [available, hinit, hserving]
    rfl

lemma parseBody_eq_ok_iff {α : Type} {read : Json → Except TypeError α} {body : String}
    {a : α} : rt.parseBody read body = .ok a ↔ ∃ j, rt.parse body = .ok j ∧ read j = .ok a := by
  unfold parseBody
  cases rt.parse body with
  | error what => simp
  | ok j => cases hread : read j <;> simp [Except.mapError, hread]

structure AgentCalls (rt : Runtime) (body : String) : Prop where
  up : rt.Up
  enabled : rt.config.agentEndpointEnabled
  orchestrator : rt.orchestrator
  toolRegistry : rt.toolRegistry.isSome
  toolSandbox : rt.toolSandbox.isSome
  steps : 0 < rt.config.agentMaxSteps
  time : 0 < rt.config.agentMaxTotalTimeoutMs
  size : (bytes body).length ≤ kMaxRequestBodySize
  model : ∃ j f b, rt.parse body = .ok j ∧ agentFields j = .ok f ∧ f.input ≠ ""
    ∧ rt.fallback = some b ∧ b.Callable f.model []

structure WorkflowStarts (rt : Runtime) (body : String) : Prop where
  up : rt.Up
  enabled : rt.config.workflowEndpointEnabled
  size : (bytes body).length ≤ kMaxRequestBodySize
  workflow : ∃ eng j w dsl, rt.workflowEngine = some eng ∧ rt.parse body = .ok j
    ∧ j.find? "workflow" = some w ∧ fromJson w = some dsl ∧ eng.Accepts dsl
    ∧ dsl.nodes ≠ []

lemma agentBudget_pos_iff {n : Int} : 0 < rt.agentBudget n ↔ 0 < rt.config.agentMaxSteps := by
  unfold agentBudget
  split <;> omega

lemma agent_invokes_iff {tools : List Agent.ToolDefinition} {sandbox : Agent.ToolSandbox}
    {b : Backend} {f : AgentFields} {input : String} :
    (Dispatch.agent (rt.requestOrchestrator tools sandbox b f) input).Invokes rt
      ↔ 0 < rt.config.agentMaxSteps ∧ 0 < rt.config.agentMaxTotalTimeoutMs
        ∧ b.Callable f.model [] := by
  have hiff : ∀ clock : Nat → ℚ, ((rt.requestOrchestrator tools sandbox b f).run clock input).1 ≠ []
      ↔ 0 < rt.agentBudget f.maxSteps ∧ clock 0 < rt.config.agentMaxTotalTimeoutMs
        ∧ b.Callable f.model [] := fun clock => Agent.run_invokes_iff rfl input
  simp only [Dispatch.Invokes, hiff, agentBudget_pos_iff]
  constructor
  · rintro ⟨clock, hclock, hsteps, htime, hcall⟩
    have hpos : (0 : ℚ) < rt.config.agentMaxTotalTimeoutMs := lt_of_le_of_lt (hclock 0) htime
    exact ⟨hsteps, Int.cast_pos.1 hpos, hcall⟩
  · rintro ⟨hsteps, htime, hcall⟩
    have hpos : (0 : ℚ) < rt.config.agentMaxTotalTimeoutMs := Int.cast_pos.2 htime
    exact ⟨fun _ => 0, fun _ => le_refl (0 : ℚ), hsteps, hpos, hcall⟩

section
variable (hauth : rt.auth = some svc) (hrbac : svc.rbac)
include hauth hrbac

lemma isSome_of_resolveContext {key : String} {ctx : Option AuthContext}
    (h : rt.resolveContext key = .ok ctx) : (svc.resolve key).isSome := by
  unfold resolveContext at h
  simp only [hauth] at h
  split at h
  · next ctx' hctx => rw [hctx]; rfl
  · rw [if_pos hrbac] at h
    cases h

lemma checkKey_rbac (key : String) : rt.checkKey key = .ok () := by
  refine require_eq_ok_iff.2 ?_
  simp [validateApiKey, hauth, hrbac]

theorem agentRun_invokes_iff : Invokes rt .agentRun req ↔ AgentCalls rt req.body := by
  constructor
  · rintro ⟨d, hd, hinv⟩
    obtain ⟨_, hup, hd⟩ := bind_eq_ok hd
    obtain ⟨_, hsize, hd⟩ := bind_eq_ok hd
    obtain ⟨f, hf, hd⟩ := bind_eq_ok hd
    obtain ⟨_, hinput, hd⟩ := bind_eq_ok hd
    obtain ⟨_, -, hd⟩ := bind_eq_ok hd
    obtain ⟨_, henabled, hd⟩ := bind_eq_ok hd
    split at hd
    · next tools sandbox horch htools hsandbox =>
      split at hd
      · cases hd
      next b hb =>
      cases hd
      obtain ⟨j, hj, hread⟩ := parseBody_eq_ok_iff.1 hf
      obtain ⟨hsteps, htime, hcall⟩ := agent_invokes_iff.1 hinv
      exact
        { up := available_eq_ok_iff.1 hup, enabled := require_eq_ok_iff.1 henabled
          orchestrator := horch, toolRegistry := by rw [htools]; rfl
          toolSandbox := by rw [hsandbox]; rfl
          steps := hsteps, time := htime, size := require_eq_ok_iff.1 hsize
          model := ⟨j, f, b, hj, hread, require_eq_ok_iff.1 hinput, hb, hcall⟩ }
    · cases hd
  · rintro ⟨hup, henabled, horch, htools, hsandbox, hsteps, htime, hsize, j, f, b, hj, hread,
      hinput, hb, hcall⟩
    obtain ⟨tools, htools⟩ := Option.isSome_iff_exists.1 htools
    obtain ⟨sandbox, hsandbox⟩ := Option.isSome_iff_exists.1 hsandbox
    refine ⟨.agent (rt.requestOrchestrator tools sandbox b f) f.input, ?_,
      agent_invokes_iff.2 ⟨hsteps, htime, hcall⟩⟩
    have hbody : rt.parseBody agentFields req.body = .ok f :=
      parseBody_eq_ok_iff.2 ⟨j, hj, hread⟩
    have havailable : rt.available = .ok () := available_eq_ok_iff.2 hup
    have hfits : checkSize kMaxRequestBodySize req.body = .ok () :=
      require_eq_ok_iff.2 hsize
    simp only [handle, agentRun, processAgentRequest,
      havailable, hfits, hbody, checkKey_rbac hauth hrbac, henabled, horch, htools, hsandbox, hb,
      bind, Except.bind, require, if_pos hinput, if_true]

theorem workflowRun_invokes_iff : Invokes rt .workflowRun req ↔ WorkflowStarts rt req.body := by
  constructor
  · rintro ⟨d, hd, hinv⟩
    obtain ⟨_, hup, hd⟩ := bind_eq_ok hd
    obtain ⟨_, hsize, hd⟩ := bind_eq_ok hd
    obtain ⟨j, hj, hd⟩ := bind_eq_ok hd
    obtain ⟨j', hj', hread⟩ := parseBody_eq_ok_iff.1 hj
    cases hread
    split at hd
    · cases hd
    next w hw =>
    obtain ⟨_, -, hd⟩ := bind_eq_ok hd
    obtain ⟨_, henabled, hd⟩ := bind_eq_ok hd
    split at hd
    · cases hd
    next eng heng =>
    split at hd
    · cases hd
    next dsl hdsl =>
    cases hd
    obtain ⟨haccepts, hnodes⟩ := startsNode_setup_iff.1 hinv
    exact
      { up := available_eq_ok_iff.1 hup, enabled := require_eq_ok_iff.1 henabled
        size := require_eq_ok_iff.1 hsize
        workflow := ⟨eng, j, w, dsl, heng, hj', hw, hdsl, haccepts, hnodes⟩ }
  · rintro ⟨hup, henabled, hsize, eng, j, w, dsl, heng, hj, hw, hdsl, haccepts, hnodes⟩
    have hbody : rt.parseBody pure req.body = .ok j := parseBody_eq_ok_iff.2 ⟨j, hj, rfl⟩
    have havailable : rt.available = .ok () := available_eq_ok_iff.2 hup
    have hfits : checkSize kMaxRequestBodySize req.body = .ok () :=
      require_eq_ok_iff.2 hsize
    refine ⟨.workflow (eng.setup (fun j => rt.sha256 (rt.dump j)) rt.requestId dsl
      (if ((j.find? "context").getD .null).isNull then .obj [] else (j.find? "context").getD .null)),
      ?_, startsNode_setup_iff.2 ⟨haccepts, hnodes⟩⟩
    simp only [handle, workflowRun, processWorkflowRequest, havailable,
      hfits, hbody, hw, checkKey_rbac hauth hrbac, henabled, heng, hdsl, bind, Except.bind,
      require, if_true]

end

lemma not_resolved_of_no_header (hreq : req.authorization = "") : ¬ Resolved rt req := by
  rintro ⟨svc, -, hsome⟩
  have htoken : extractBearerToken req.authorization = "" := by
    rw [hreq]
    decide
  rw [htoken, AuthService.resolve, if_pos rfl] at hsome
  cases hsome

end

/-! ## every entry point -/

/-- With RBAC, every request of every endpoint is mediated exactly when the agent endpoint calls no
model and the workflow endpoint starts no node, whatever the body. -/
theorem all_mediated_iff {rt : Runtime} {svc : AuthService} (hauth : rt.auth = some svc)
    (hrbac : svc.rbac) : (∀ ep req, Mediated rt ep req)
      ↔ ∀ body, ¬ AgentCalls rt body ∧ ¬ WorkflowStarts rt body := by
  constructor
  · intro hall body
    have hno : ∀ ep, ¬ Invokes rt ep { body } := fun ep hinv =>
      not_resolved_of_no_header rfl (hall ep _ hinv)
    exact ⟨fun h => hno .agentRun ((agentRun_invokes_iff hauth hrbac).2 h),
      fun h => hno .workflowRun ((workflowRun_invokes_iff hauth hrbac).2 h)⟩
  · intro hnone ep req hinv
    cases ep with
    | chatCompletions =>
      obtain ⟨d, hd, -⟩ := hinv
      obtain ⟨-, -, hd⟩ := bind_eq_ok hd
      obtain ⟨-, -, hd⟩ := bind_eq_ok hd
      obtain ⟨-, -, hd⟩ := bind_eq_ok hd
      obtain ⟨chat, -, hd⟩ := bind_eq_ok hd
      obtain ⟨-, -, hd⟩ := bind_eq_ok hd
      obtain ⟨ctx, hctx, -⟩ := bind_eq_ok hd
      exact ⟨svc, hauth, isSome_of_resolveContext hauth hrbac hctx⟩
    | proxy path =>
      obtain ⟨d, hd, -⟩ := hinv
      obtain ⟨-, -, hd⟩ := bind_eq_ok hd
      obtain ⟨-, -, hd⟩ := bind_eq_ok hd
      obtain ⟨-, -, hd⟩ := bind_eq_ok hd
      obtain ⟨ctx, hctx, -⟩ := bind_eq_ok hd
      exact ⟨svc, hauth, isSome_of_resolveContext hauth hrbac hctx⟩
    | agentRun => exact absurd ((agentRun_invokes_iff hauth hrbac).1 hinv) (hnone _).1
    | workflowRun => exact absurd ((workflowRun_invokes_iff hauth hrbac).1 hinv) (hnone _).2

/-- a gateway with RBAC on, no key in its store and the two endpoints as they are by default -/
def rbacGateway : Runtime where
  auth := some { store := ⟨[], [], []⟩, rbac := true, config := none, sha256 := fun _ => "", now := "" }
  sha256 := fun _ => ""
  parse := fun _ => .error "parse error"
  dump := fun _ => ""
  what := fun _ => ""
  requestId := "req-1"
  complete := fun _ _ _ => [.connector "m"]
  stream := fun _ _ _ => [.connector "m"]
  forward := fun _ _ => [.connector "m"]

def agentBody : String := "\x7b\"model\":\"m\",\"input\":\"hi\"\x7d"

/-- with the endpoint off, a request without a header calls nothing -/
theorem all_mediated_default : Mediated rbacGateway .agentRun { body := agentBody } :=
  (all_mediated_iff rfl rfl).2 (fun _ =>
    ⟨fun h => Bool.false_ne_true h.enabled, fun h => Bool.false_ne_true h.enabled⟩) _ _

def workflowBody : String :=
  "\x7b\"workflow\":\x7b\"id\":\"w\",\"nodes\":[\x7b\"id\":\"t\",\"tool_id\":\"echo\"\x7d]\x7d\x7d"

/-- … and with the two endpoints enabled, over one connector and an engine -/
def openGateway : Runtime :=
  { rbacGateway with
    config := { agentEndpointEnabled := true, workflowEndpointEnabled := true }
    parse := fun body =>
      if body = agentBody then .ok (.obj [("model", .str "m"), ("input", .str "hi")])
      else if body = workflowBody then
        .ok (.obj [("workflow", .obj [("id", .str "w"),
          ("nodes", .arr [.obj [("id", .str "t"), ("tool_id", .str "echo")]])])])
      else .error "parse error"
    orchestrator := true
    toolRegistry := some []
    toolSandbox := some ⟨[], none⟩
    fallback := some ⟨fun _ _ => true, fun _ => true, fun _ _ _ => .ok "Final Answer: hello", []⟩
    workflowEngine := some {} }

/-- No `Authorization` header, and a store without keys: the agent endpoint calls the connector, and
the workflow endpoint starts the node. -/
theorem runs_without_token :
    (∃ svc, openGateway.auth = some svc ∧ svc.rbac ∧ svc.store.apiKeys = [])
      ∧ ¬ Mediated openGateway .agentRun { body := agentBody }
      ∧ ¬ Mediated openGateway .workflowRun { body := workflowBody } := by
  refine ⟨⟨_, rfl, rfl, rfl⟩, ?_, ?_⟩
  · intro hmed
    refine not_resolved_of_no_header rfl (hmed ((agentRun_invokes_iff rfl rfl).2 ?_))
    exact
      { up := ⟨rfl, rfl⟩, enabled := rfl, orchestrator := rfl, toolRegistry := rfl
        toolSandbox := rfl, steps := by decide, time := by decide, size := by decide
        model := ⟨_, _, _, rfl, rfl, by decide, rfl, "m", by decide, rfl, rfl⟩ }
  · intro hmed
    refine not_resolved_of_no_header rfl (hmed ((workflowRun_invokes_iff rfl rfl).2 ?_))
    exact
      { up := ⟨rfl, rfl⟩, enabled := rfl, size := by decide
        workflow := ⟨_, _, _, _, rfl, rfl, rfl, rfl, ⟨by decide, rfl, by decide, by decide⟩,
          by simp⟩ }

end AegisGate.Server
