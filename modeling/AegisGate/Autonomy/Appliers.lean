import AegisGate.Autonomy.Steps
import AegisGate.Workflow.Engine

/-!
# The five appliers and their targets

`cost_autonomy_applier.cpp`, `recovery_applier.cpp`, `bandit_autonomy_applier.cpp`,
`guard_model_applier.cpp` and `workflow_approval_applier.cpp`, with the parts of `MLRouter`,
`BudgetGuardStage`, `BanditRouter` and `MemoryGuardModelRegistry` that they write.

* `Targets`  what the appliers change; the workflow runs are a value of any type `ω`;
* `Wiring`  the environment, the clock and which dependencies are set;
* `withPayload`  a payload that throws, one that is refused, one that is taken;
* `Wiring.applier w k`  the applier of kind `k` behind the wrapper of `BaseAutonomyApplier`.

The audit rows of `RecoveryApplier` and the durations are left out.
-/

namespace AegisGate

open Json Function
namespace Autonomy

/-! ## the targets -/

inductive BanditMode where
  | shadow
  | live
  deriving DecidableEq, Repr

def BanditMode.toJson : BanditMode → Json
  | shadow => .str "Shadow"
  | live => .str "Live"

inductive GuardModelStatus where
  | shadow
  | live
  | retired
  deriving DecidableEq, Repr

def GuardModelStatus.toString : GuardModelStatus → String
  | shadow => "shadow"
  | live => "live"
  | retired => "retired"

structure ModelRegistryRecord where
  modelId : String
  version : String
  path : String := ""
  classifierThreshold : ℚ := 1 / 2
  status : GuardModelStatus := .shadow
  promotedAtMs : Int := 0
  artifactSha256 : String := ""
  metricsSummary : String := ""
  deriving DecidableEq

abbrev Registry := String → Option ModelRegistryRecord

structure Targets (ω : Type) where
  /-- `MLRouter::quality_tier_overrides_` -/
  tierOverrides : String → Option String
  /-- `BudgetGuardConfig::per_tenant_24h_usd` -/
  perTenant24hUsd : ℚ
  banditMode : BanditMode
  canaryPct : ℚ
  /-- `MemoryGuardModelRegistry::store_` -/
  registry : Registry
  runs : ω

namespace Targets

variable {ω : Type} (t : Targets ω)

def overrideQualityTier (tenantId tier : String) : Targets ω :=
  if tenantId = "" ∨ tier = "" then t
  else { t with tierOverrides := update t.tierOverrides tenantId (some tier) }

def clearQualityTierOverride (tenantId : String) : Targets ω :=
  if tenantId = "" then t
  else { t with tierOverrides := update t.tierOverrides tenantId none }

def getQualityTierOverride (tenantId : String) : Option String :=
  if tenantId = "" then none else t.tierOverrides tenantId

def transitionToLive (env : Env) (canaryPct : ℚ) : Bool × Targets ω :=
  if !isAutonomyEnabled env then (false, t)
  else (true, { t with banditMode := .live, canaryPct })

def revertToShadow : Targets ω := { t with banditMode := .shadow }

def setPerTenantCap (usd : ℚ) : Targets ω := { t with perTenant24hUsd := usd }

end Targets

structure RegistryOpResult where
  ok : Bool
  errorCode : String := ""
  detail : String := ""

def RegistryOpResult.fail (code detail : String) : RegistryOpResult :=
  { ok := false, errorCode := code, detail }

namespace Registry

def key (modelId version : String) : String := modelId ++ "::" ++ version

variable (reg : Registry)

def insert (record : ModelRegistryRecord) : RegistryOpResult × Registry :=
  if record.modelId = "" ∨ record.version = "" then
    (.fail "invalid_input" "model_id and version required", reg)
  else if (reg (key record.modelId record.version)).isSome then
    (.fail "duplicate_version"
      ("(" ++ record.modelId ++ ", " ++ record.version ++ ") already exists"), reg)
  else
    ({ ok := true }, update reg (key record.modelId record.version) (some record))

/-- every other live version of the model is retired -/
def demoteOthers (modelId version : String) : Registry := fun k =>
  (reg k).map fun rec =>
    if rec.modelId = modelId ∧ rec.version ≠ version ∧ rec.status = .live then
      { rec with status := .retired }
    else rec

def promote (reg : Registry) (modelId version : String) (promotedAtMs : Int) :
    RegistryOpResult × Registry :=
  match reg (key modelId version) with
  | none => (.fail "not_found" ("(" ++ modelId ++ ", " ++ version ++ ")"), reg)
  | some rec =>
    if rec.status = .retired then
      (.fail "illegal_transition" "cannot promote retired model", reg)
    else
      ({ ok := true }, update (demoteOthers reg modelId version) (key modelId version)
        (some { rec with status := .live, promotedAtMs }))

def revert (modelId version : String) : RegistryOpResult × Registry :=
  match reg (key modelId version) with
  | none => (.fail "not_found" ("(" ++ modelId ++ ", " ++ version ++ ")"), reg)
  | some rec =>
    if rec.status ≠ .live then
      (.fail "illegal_transition"
        ("only Live -> Retired is allowed; current=" ++ rec.status.toString), reg)
    else
      ({ ok := true }, update reg (key modelId version) (some { rec with status := .retired }))

end Registry

/-! ## common parts -/

/-- what the appliers are constructed with, and what they read besides the proposal -/
structure Wiring (ω : Type) where
  env : Env
  nowMs : Int
  dump : Json → String
  hasRouter : Bool
  hasBudgetGuard : Bool
  hasBanditRouter : Bool
  hasRegistry : Bool
  hasEngine : Bool
  /-- `dsl_hash` of a stored run -/
  runHash : ω → String → Option String
  resume : String → ω → Except TypeError Workflow.WorkflowExecutionResult × ω

abbrev Outcome (τ : Type) := Except TypeError ApplyResult × τ

def makeFailSchemaInvalid (err : String) : ApplyResult := .fail "schema_invalid" err

def ApplyResult.succeed (details : List (String × Json)) : ApplyResult :=
  { success := true, details := .obj details }

def makeDryRunOk (details : List (String × Json)) : ApplyResult :=
  .succeed (setMember "dry_run" (.bool true) details)

def optStr : Option String → Json
  | some s => .str s
  | none => .null

def withPayload {τ α : Type} (x : Except TypeError (Except String α)) (t : τ)
    (k : α → Outcome τ) : Outcome τ :=
  match x with
  | .error e => (.error e, t)
  | .ok (.error err) => (.ok (makeFailSchemaInvalid err), t)
  | .ok (.ok v) => k v

/-- `BaseAutonomyApplier::apply` and `rollback`, over what a subclass implements -/
def StepApplier.guarded {τ : Type} (env : Env) (a : StepApplier τ) : StepApplier τ where
  apply p dryRun t := if isAutonomyEnabled env then a.apply p dryRun t else (.ok autonomyDisabled, t)
  rollback p t := if isAutonomyEnabled env then a.rollback p t else (.ok autonomyDisabled, t)

section
variable {ω : Type} (w : Wiring ω)

/-! ## cost -/

structure CostPayload where
  tenantId : String
  fromTier : String
  toTier : String
  savingsUsd24h : ℚ
  affectedRps : Int

def CostPayload.extract (p : ApprovalProposal) :
    Except TypeError (Except String CostPayload) :=
  if !p.payload.isObject then .ok (.error "payload is not a JSON object")
  else do
    let tenantId ← p.payload.valueStr "tenant_id" ""
    let fromTier ← p.payload.valueStr "from_quality_tier" ""
    let toTier ← p.payload.valueStr "to_quality_tier" ""
    let savings ← p.payload.valueDouble "estimated_savings_usd_24h" 0
    let rps ← p.payload.valueInt "affected_requests_per_hour" 0
    if tenantId = "" then pure (.error "missing tenant_id")
    else if fromTier = "" then pure (.error "missing from_quality_tier")
    else if toTier = "" then pure (.error "missing to_quality_tier")
    else pure (.ok ⟨tenantId, fromTier, toTier, savings, rps⟩)

def costApplier : StepApplier (Targets ω) where
  apply p dryRun t :=
    withPayload (CostPayload.extract p) t fun v =>
      if !w.hasRouter then (.ok (.fail "router_missing" "MLRouter not wired"), t)
      else
        let details (after : Json) :=
          [("tenant_id", str v.tenantId), ("from_tier", .str v.fromTier),
            ("to_tier", .str v.toTier), ("router_before", optStr (t.getQualityTierOverride v.tenantId)),
            ("router_after", after)]
        if dryRun then (.ok (makeDryRunOk (details (.str v.toTier))), t)
        else
          let t' := t.overrideQualityTier v.tenantId v.toTier
          (.ok (.succeed (details (optStr (t'.getQualityTierOverride v.tenantId)))), t')
  rollback p t :=
    withPayload (CostPayload.extract p) t fun v =>
      if !w.hasRouter then (.ok (.fail "router_missing" "MLRouter not wired"), t)
      else
        let t' := t.clearQualityTierOverride v.tenantId
        (.ok (.succeed [("tenant_id", .str v.tenantId),
          ("router_before", optStr (t.getQualityTierOverride v.tenantId)),
          ("router_after", optStr (t'.getQualityTierOverride v.tenantId))]), t')

/-! ## recovery -/

def advisoryActions : List String :=
  ["switch_router_fallback", "switch_connector", "propose_hpa_scale", "send_webhook", "audit_only"]

section
variable (p : ApprovalProposal)

def extractAction : Except TypeError String :=
  if !p.payload.isObject then .ok "" else p.payload.valueStr "action" ""

def tierPayload : Except TypeError (Except String (String × String)) :=
  if !p.payload.isObject then .ok (.error "payload not object")
  else do
    let tenant ← p.payload.valueStr "tenant_id" ""
    let toTier ← p.payload.valueStr "to_quality_tier" ""
    if tenant = "" ∨ toTier = "" then pure (.error "missing tenant_id or to_quality_tier")
    else pure (.ok (tenant, toTier))

/-- the rollback of `override_quality_tier` asks for the tenant only -/
def tenantPayload : Except TypeError (Except String String) :=
  if !p.payload.isObject then .ok (.error "payload not object")
  else do
    let tenant ← p.payload.valueStr "tenant_id" ""
    if tenant = "" then pure (.error "missing tenant_id") else pure (.ok tenant)

def handleOverrideQualityTier (dryRun : Bool) (t : Targets ω) : Outcome (Targets ω) :=
  withPayload (tierPayload p) t fun v =>
    if !w.hasRouter then (.ok (.fail "router_missing" "MLRouter not wired"), t)
    else
      let details (after : Json) :=
        [("action", str "override_quality_tier"), ("tenant_id", .str v.1), ("to_tier", .str v.2),
          ("router_before", optStr (t.getQualityTierOverride v.1)), ("router_after", after)]
      if dryRun then (.ok (makeDryRunOk (details (.str v.2))), t)
      else
        let t' := t.overrideQualityTier v.1 v.2
        (.ok (.succeed (details (optStr (t'.getQualityTierOverride v.1)))), t')

def rollbackOverrideQualityTier (t : Targets ω) : Outcome (Targets ω) :=
  withPayload (tenantPayload p) t fun tenant =>
    if !w.hasRouter then (.ok (.fail "router_missing" "MLRouter not wired"), t)
    else
      (.ok (.succeed [("tenant_id", .str tenant), ("cleared", .bool true)]),
        t.clearQualityTierOverride tenant)

def newCapPayload : Except TypeError (Except String ℚ) :=
  if !p.payload.isObject then .ok (.error "payload not object")
  else if !p.payload.contains "new_per_tenant_24h_usd" then
    .ok (.error "missing new_per_tenant_24h_usd")
  else do
    let newCap ← p.payload.valueDouble "new_per_tenant_24h_usd" (-1)
    if newCap < 0 then pure (.error "new_per_tenant_24h_usd must be >= 0") else pure (.ok newCap)

def handleApplyBudgetCap (dryRun : Bool) (t : Targets ω) : Outcome (Targets ω) :=
  withPayload (newCapPayload p) t fun newCap =>
    if !w.hasBudgetGuard then
      (.ok (.fail "budget_guard_missing" "BudgetGuardStage not wired"), t)
    else
      let details := [("action", str "apply_budget_cap"),
        ("previous_cap", .float t.perTenant24hUsd), ("new_cap", .float newCap)]
      if dryRun then (.ok (makeDryRunOk details), t)
      else (.ok (.succeed details), t.setPerTenantCap newCap)

/-- the rollback of `apply_budget_cap` takes the old cap from the payload -/
def hasPreviousCap : Except TypeError (Except String Unit) :=
  if !p.payload.isObject then .ok (.error "payload not object")
  else if !p.payload.contains "previous_per_tenant_24h_usd" then
    .ok (.error "rollback needs previous_per_tenant_24h_usd in payload")
  else .ok (.ok ())

def previousCap : Except TypeError (Except String ℚ) := do
  let prevCap ← p.payload.valueDouble "previous_per_tenant_24h_usd" (-1)
  if prevCap < 0 then pure (.error "negative previous cap") else pure (.ok prevCap)

def rollbackApplyBudgetCap (t : Targets ω) : Outcome (Targets ω) :=
  withPayload (hasPreviousCap p) t fun _ =>
    if !w.hasBudgetGuard then
      (.ok (.fail "budget_guard_missing" "BudgetGuardStage not wired"), t)
    else
      withPayload (previousCap p) t fun prevCap =>
        (.ok (.succeed [("restored_cap", .float prevCap)]), t.setPerTenantCap prevCap)

end

def recoveryApplier : StepApplier (Targets ω) where
  apply p dryRun t :=
    match extractAction p with
    | .error e => (.error e, t)
    | .ok action =>
      if action = "override_quality_tier" then handleOverrideQualityTier w p dryRun t
      else if action = "apply_budget_cap" then handleApplyBudgetCap w p dryRun t
      else if action ∈ advisoryActions then
        (.ok (.succeed [("action", .str action), ("mode", .str "advisory")]), t)
      else (.ok (.fail "unknown_action" ("unrecognised action: " ++ action)), t)
  rollback p t :=
    match extractAction p with
    | .error e => (.error e, t)
    | .ok action =>
      if action = "override_quality_tier" then rollbackOverrideQualityTier w p t
      else if action = "apply_budget_cap" then rollbackApplyBudgetCap w p t
      else if action ∈ advisoryActions then
        (.ok (.succeed [("action", .str action), ("mode", .str "advisory_noop")]), t)
      else (.ok (.fail "unknown_action" ("unrecognised action: " ++ action)), t)

/-! ## bandit -/

structure ShadowMetrics where
  winRate : ℚ := 0
  shadowDurationMin : Int := 0
  delta : ℚ := 0

/-- `shadow_metrics`, if it is an object; the third member is named by the applier -/
def ShadowMetrics.extract (payload : Json) (delta : String) :
    Except TypeError ShadowMetrics :=
  match payload.find? "shadow_metrics" with
  | some (.obj l) => do
    let winRate ← (obj l).valueDouble "win_rate" 0
    let minutes ← (obj l).valueInt "shadow_duration_min" 0
    let d ← (obj l).valueDouble delta 0
    pure ⟨winRate, minutes, d⟩
  | _ => .ok {}

structure BanditPayload where
  action : String
  strategy : String
  canaryPct : ℚ
  metrics : ShadowMetrics

def BanditPayload.extract (p : ApprovalProposal) :
    Except TypeError (Except String BanditPayload) :=
  if !p.payload.isObject then .ok (.error "payload is not a JSON object")
  else do
    let action ← p.payload.valueStr "action" ""
    let strategy ← p.payload.valueStr "strategy" ""
    let canaryPct ← p.payload.valueDouble "canary_pct" 0
    let metrics ← ShadowMetrics.extract p.payload "cost_delta_pct"
    if action = "" then pure (.error "missing action")
    else if strategy = "" then pure (.error "missing strategy")
    else pure (.ok ⟨action, strategy, canaryPct, metrics⟩)

/-- what the action does to the router; an unknown action is not tried -/
def banditAction (v : BanditPayload) (t : Targets ω) : Option (Bool × Targets ω) :=
  if v.action = "shadow_to_live" ∨ v.action = "expand_canary" then
    some (t.transitionToLive w.env v.canaryPct)
  else if v.action = "revert_to_shadow" then some (true, t.revertToShadow)
  else none

def banditApplier : StepApplier (Targets ω) where
  apply p dryRun t :=
    withPayload (BanditPayload.extract p) t fun v =>
      if !w.hasBanditRouter then (.ok (.fail "router_missing" "BanditRouter not wired"), t)
      else
        let details (after : Json) :=
          [("action", str v.action), ("strategy", .str v.strategy),
            ("canary_pct", .float v.canaryPct), ("mode_before", t.banditMode.toJson),
            ("mode_after", after)]
        if dryRun then
          (.ok (makeDryRunOk (details (if v.action = "revert_to_shadow" then BanditMode.shadow.toJson
            else BanditMode.live.toJson))), t)
        else
          match banditAction w v t with
          | none => (.ok (.fail "unknown_action" ("action=" ++ v.action)), t)
          | some (ok, t') =>
            if !ok then
              (.ok { success := false, errorCode := "transition_refused",
                     errorMessage := "BanditRouter rejected transition",
                     details := .obj (details t'.banditMode.toJson) }, t')
            else (.ok (.succeed (details t'.banditMode.toJson)), t')
  rollback p t :=
    withPayload (BanditPayload.extract p) t fun _ =>
      if !w.hasBanditRouter then (.ok (.fail "router_missing" "BanditRouter not wired"), t)
      else
        (.ok (.succeed [("action", .str "revert_to_shadow"), ("mode_before", t.banditMode.toJson),
          ("mode_after", t.revertToShadow.banditMode.toJson)]), t.revertToShadow)

/-! ## guard models -/

structure GuardPayload where
  action : String
  modelId : String
  version : String
  metrics : ShadowMetrics

def GuardPayload.extract (p : ApprovalProposal) :
    Except TypeError (Except String GuardPayload) :=
  if !p.payload.isObject then .ok (.error "payload is not a JSON object")
  else do
    let action ← p.payload.valueStr "action" ""
    let modelId ← p.payload.valueStr "model_id" ""
    let version ← p.payload.valueStr "version" ""
    let metrics ← ShadowMetrics.extract p.payload "fp_rate_delta"
    if action = "" then pure (.error "missing action")
    else if modelId = "" then pure (.error "missing model_id")
    else if version = "" then pure (.error "missing version")
    else pure (.ok ⟨action, modelId, version, metrics⟩)

def shadowRecord (p : ApprovalProposal) (v : GuardPayload) :
    Except TypeError ModelRegistryRecord := do
  let path ← p.payload.valueStr "path" ""
  let threshold ← p.payload.valueDouble "classifier_threshold" (1 / 2)
  let sha ← p.payload.valueStr "artifact_sha256" ""
  pure { modelId := v.modelId, version := v.version, path, status := .shadow
         classifierThreshold := threshold, artifactSha256 := sha
         metricsSummary := w.dump ((p.payload.find? "metrics_summary").getD (.obj [])) }

def guardAction (p : ApprovalProposal) (v : GuardPayload) (reg : Registry) :
    Except TypeError (RegistryOpResult × Registry) :=
  if v.action = "promote_shadow_to_live" then .ok (reg.promote v.modelId v.version w.nowMs)
  else if v.action = "revert_to_previous" then .ok (reg.revert v.modelId v.version)
  else if v.action = "register_shadow" then (shadowRecord w p v).map reg.insert
  else .ok (.fail "unknown_action" v.action, reg)

def GuardPayload.details (v : GuardPayload) : List (String × Json) :=
  [("action", .str v.action), ("model_id", .str v.modelId), ("version", .str v.version),
    ("win_rate", .float v.metrics.winRate), ("shadow_duration_min", .int v.metrics.shadowDurationMin),
    ("fp_rate_delta", .float v.metrics.delta)]

def guardModelApplier : StepApplier (Targets ω) where
  apply p dryRun t :=
    withPayload (GuardPayload.extract p) t fun v =>
      if !w.hasRegistry then (.ok (.fail "registry_missing" "no IGuardModelRegistry"), t)
      else if dryRun then (.ok (makeDryRunOk v.details), t)
      else
        match guardAction w p v t.registry with
        | .error e => (.error e, t)
        | .ok (op, reg) =>
          if !op.ok then
            (.ok { success := false, errorCode := op.errorCode, errorMessage := op.detail,
                   details := .obj (v.details ++ [("error_code", .str op.errorCode)]) },
              { t with registry := reg })
          else (.ok (.succeed v.details), { t with registry := reg })
  rollback p t :=
    withPayload (GuardPayload.extract p) t fun v =>
      if !w.hasRegistry then (.ok (.fail "registry_missing" ""), t)
      else
        let details := [("rollback_target", str v.version), ("model_id", .str v.modelId)]
        match t.registry.revert v.modelId v.version with
        | (op, reg) =>
          if !op.ok then
            (.ok { success := false, errorCode := op.errorCode, errorMessage := op.detail,
                   details := .obj details }, { t with registry := reg })
          else (.ok (.succeed details), { t with registry := reg })

/-! ## workflow runs -/

structure RunPayload where
  runId : String
  nodeId : String
  dslHash : String

def RunPayload.extract (p : ApprovalProposal) :
    Except TypeError (Except String RunPayload) :=
  if !p.payload.isObject then .ok (.error "payload not an object")
  else do
    let runId ← p.payload.valueStr "run_id" ""
    let nodeId ← p.payload.valueStr "node_id" ""
    let dslHash ← p.payload.valueStr "dsl_hash" ""
    if runId = "" ∨ nodeId = "" then pure (.error "payload missing run_id or node_id")
    else pure (.ok ⟨runId, nodeId, dslHash⟩)

def resumeResult (v : RunPayload) (res : Workflow.WorkflowExecutionResult) : ApplyResult :=
  let details := [("run_id", str v.runId), ("node_id", .str v.nodeId),
    ("final_status", .str res.finalStatus.toString), ("completed", .int res.completedNodes),
    ("failed", .int res.failedNodes)]
  if res.ok then .succeed details
  else { success := false, errorCode := "resume_failed", details := .obj details
         errorMessage := if res.errorMessage = "" then "engine refused" else res.errorMessage }

def workflowApplier : StepApplier (Targets ω) where
  apply p dryRun t :=
    withPayload (RunPayload.extract p) t fun v =>
      if !w.hasEngine then (.ok (.fail "engine_unavailable" "applier wiring broken"), t)
      else if dryRun then
        (.ok (makeDryRunOk [("run_id", .str v.runId), ("node_id", .str v.nodeId)]), t)
      else
        match w.runHash t.runs v.runId with
        | none => (.ok (.fail "run_not_found" v.runId), t)
        | some hash =>
          if v.dslHash ≠ "" ∧ v.dslHash ≠ hash then
            (.ok (.fail "dsl_hash_mismatch" "proposal payload diverged from stored DSL"), t)
          else
            ((w.resume v.runId t.runs).1.map (resumeResult v),
              { t with runs := (w.resume v.runId t.runs).2 })
  -- a rollback reads the payload and changes nothing
  rollback p t :=
    let details : Except TypeError (List (String × Json)) := do
      let runId ← p.payload.valueStr "run_id" ""
      let nodeId ← p.payload.valueStr "node_id" ""
      pure [("run_id", .str runId), ("node_id", .str nodeId),
        ("note", .str "v1 rollback is a no-op")]
    (details.map .succeed, t)

/-! ## the applier of a kind -/

inductive ApplierKind where
  | cost
  | recovery
  | bandit
  | guardModel
  | workflow
  deriving DecidableEq, Repr

def applierImpl : ApplierKind → StepApplier (Targets ω)
  | .cost => costApplier w
  | .recovery => recoveryApplier w
  | .bandit => banditApplier w
  | .guardModel => guardModelApplier w
  | .workflow => workflowApplier w

def Wiring.applier (k : ApplierKind) : StepApplier (Targets ω) := (applierImpl w k).guarded w.env

end

end Autonomy
end AegisGate
