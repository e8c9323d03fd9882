import AegisGate.ControlPlane.ConfigService

/-!
# The rollout controller

`RolloutController` (`control_plane/rollout/rollout_controller.cpp`): a rollout is created for an
approved version, started, promoted stage by stage, paused and resumed, and it ends completed, failed
or aborted.  A ticker looks at the rollouts that are under way.  Each function is a program over the
calls of the store; the ones of the config service are called as they are.

What a call reads from its surroundings is an argument: the clocks of the controller and of the config
service, the quota hook, the fresh rollout id, and for the ticker the `Readings` of each rollout
(metrics, the auto-rollback switch, the config service's clock).  A metrics provider that throws is
one that is absent: the exception is caught and the rollout is left as it is.
-/

namespace AegisGate.ControlPlane

/-- `errorCode = ""` is success -/
structure RolloutResult where
  record : RolloutRecord := {}
  errorCode : String := ""
  errorMessage : String := ""

def makeError (code message : String) : RolloutResult :=
  { errorCode := code, errorMessage := message }

structure ControllerDeps where
  pauseCooldownMs : ℤ := 5 * 60 * 1000
  systemUserId : String := "system.autorollback"

structure VersionMetrics where
  sampleCount : ℤ := 0
  errorRate : Float := 0.0
  p99LatencyMs : Float := 0.0

structure Readings where
  metrics : Option (String → ℤ → VersionMetrics) := none
  autoRollbackEnabled : Bool := true
  configNow : ℤ := 0

/-- the record is loaded and given to `k`, or the request fails -/
def withRollout (rolloutId : String) (k : RolloutRecord → Prog RolloutResult) :
    Prog RolloutResult :=
  if rolloutId = "" then pure (makeError "INVALID_ARGUMENT" "rollout_id is required")
  else do
    let maybe ← ask (.getRollout rolloutId)
    match maybe with
    | none => pure (makeError "NOT_FOUND" ("rollout not found: " ++ rolloutId))
    | some record => k record

def persist (record : RolloutRecord) : Prog RolloutResult := do
  let stored ← ask (.updateRollout record)
  if stored then pure { record }
  else pure (makeError "INTERNAL" "updateRollout failed")

/-! ## creating and starting -/

def badPercentage (stage : RolloutStageRecord) : Bool :=
  stage.scope.percentage < 0 || stage.scope.percentage > 100

def refuseSpec (spec : RolloutSpec) (creator : String) : Option (String × String) :=
  if spec.targetVersionId = "" then some ("INVALID_ARGUMENT", "target_version_id is required")
  else if spec.stages = [] then some ("INVALID_ARGUMENT", "at least one stage is required")
  else
    match spec.stages.findIdx? badPercentage with
    | some i =>
      some ("INVALID_ARGUMENT", "stage " ++ toString i ++ ": percentage must be in [0,100]")
    | none =>
      if creator = "" then some ("INVALID_ARGUMENT", "creator is required") else none

def created (spec : RolloutSpec) (creator rolloutId : String) : RolloutRecord :=
  { rolloutId := rolloutId
    targetVersionId := spec.targetVersionId
    spec := spec
    creator := creator
    status := .pending
    currentStageIndex := 0
    lastActor := creator }

def createRollout (spec : RolloutSpec) (creator : String) (quotaAllowed : Bool)
    (rolloutId : String) : Prog RolloutResult :=
  match refuseSpec spec creator with
  | some (code, message) => pure (makeError code message)
  | none =>
    if quotaAllowed = false then
      pure (makeError "RESOURCE_EXHAUSTED" ("tenant rollout quota exhausted: " ++ creator))
    else do
      let version ← ask (.getConfigVersion spec.targetVersionId)
      match version with
      | none =>
        pure (makeError "NOT_FOUND" ("target_version_id not found: " ++ spec.targetVersionId))
      | some version =>
        if version.status ≠ .approved then
          pure (makeError "FAILED_PRECONDITION" "target_version_id is not APPROVED")
        else do
          let existing ← ask (.findActiveRolloutByTarget spec.targetVersionId)
          match existing with
          | some _ =>
            pure (makeError "ALREADY_EXISTS"
              ("active rollout already exists for target: " ++ spec.targetVersionId))
          | none => do
            let stored ← ask (.insertRollout (created spec creator rolloutId))
            if stored then pure { record := created spec creator rolloutId }
            else pure (makeError "INTERNAL" "insertRollout failed")

section
variable (rolloutId actor : String)

def startRollout (now : ℤ) : Prog RolloutResult :=
  withRollout rolloutId fun record =>
    match attemptRolloutTransition record.status .start false with
    | none =>
      pure (makeError "FAILED_PRECONDITION"
        ("cannot start rollout in state " ++ rolloutStatusToString record.status))
    | some next => do
      let active ← ask .getActiveConfig
      persist { record with
        status := next
        startedAt := now
        stageStartedAt := now
        previousActiveVersionId := (active.map (·.versionId)).getD ""
        lastActor := actor }

/-! ## promoting -/

def isLastStage (record : RolloutRecord) : Bool :=
  record.currentStageIndex + 1 ≥ record.spec.stages.length

/-- the last stage: the target is activated first, and then the rollout is completed -/
def promoteLast (record : RolloutRecord) (next : RolloutStatus) (actor : String)
    (now configNow : ℤ) : Prog RolloutResult := do
  let activation ← activate record.targetVersionId actor configNow
  if activation.errorCode ≠ "" then
    match attemptRolloutTransition record.status .fail false with
    | none => pure (makeError "INTERNAL" ("activate failed: " ++ activation.errorMessage))
    | some failNext => do
      -- the answer of the store is not looked at
      let _ ← ask (.updateRollout { record with status := failNext, completedAt := now })
      pure (makeError "INTERNAL" ("activate failed: " ++ activation.errorMessage))
  else do
    let completed := { record with status := next, completedAt := now, lastActor := actor }
    let stored ← ask (.updateRollout completed)
    if stored then pure { record := completed }
    else
      pure (makeError "INTERNAL" ("config activated but rollout status persist failed; " ++
        "pending onTick reconcile"))

def promoteStage (now configNow : ℤ) : Prog RolloutResult :=
  withRollout rolloutId fun record =>
    match attemptRolloutTransition record.status .promote (isLastStage record) with
    | none =>
      pure (makeError "FAILED_PRECONDITION"
        ("cannot promote in state " ++ rolloutStatusToString record.status))
    | some next =>
      if isLastStage record then promoteLast record next actor now configNow
      else
        persist { record with
          status := next
          currentStageIndex := record.currentStageIndex + 1
          stageStartedAt := now
          lastActor := actor }

/-! ## pausing, resuming, aborting -/

def pauseRollout (rolloutId actor comment : String) (now : ℤ) : Prog RolloutResult :=
  withRollout rolloutId fun record =>
    match attemptRolloutTransition record.status .pauseManual false with
    | none =>
      pure (makeError "FAILED_PRECONDITION"
        ("cannot pause in state " ++ rolloutStatusToString record.status))
    | some next =>
      persist { record with
        status := next
        pausedAt := now
        pauseReason := .manual
        pauseDetail := comment
        lastActor := actor }

/-- `pausedAt` stays: it is the anchor of the auto-pause cooldown -/
def resumeRollout (now : ℤ) : Prog RolloutResult :=
  withRollout rolloutId fun record =>
    match attemptRolloutTransition record.status .resume false with
    | none =>
      pure (makeError "FAILED_PRECONDITION"
        ("cannot resume in state " ++ rolloutStatusToString record.status))
    | some next =>
      persist { record with
        status := next
        pauseReason := .unspecified
        pauseDetail := ""
        stageStartedAt := now
        lastActor := actor }

/-- the config version that was active at the start is restored, when there was one -/
def restorePrevious (record : RolloutRecord) (actor : String) (configNow : ℤ) : Prog Unit :=
  if record.previousActiveVersionId = "" then pure ()
  else do
    let _ ← rollback record.previousActiveVersionId actor false configNow
    pure ()

def abortRollout (now configNow : ℤ) : Prog RolloutResult :=
  withRollout rolloutId fun record =>
    match attemptRolloutTransition record.status .abort false with
    | none =>
      pure (makeError "FAILED_PRECONDITION"
        ("cannot abort in state " ++ rolloutStatusToString record.status))
    | some next => do
      let aborted := { record with status := next, completedAt := now, lastActor := actor }
      let stored ← ask (.updateRollout aborted)
      if stored = false then pure (makeError "INTERNAL" "updateRollout failed")
      else if record.status = .progressing ∨ record.status = .paused then do
        restorePrevious aborted actor configNow
        pure { record := aborted }
      else pure { record := aborted }

end

/-! ## looking at the metrics -/

def currentStage (record : RolloutRecord) : Option RolloutStageRecord :=
  if record.currentStageIndex < 0 then none
  else record.spec.stages[record.currentStageIndex.toNat]?

/-- the first threshold exceeded, absolute ones first; relative ones need a healthy baseline -/
def breach (ap : AutoPausePolicy) (target baseline : VersionMetrics) :
    Option (PauseReason × String) :=
  let baselineUnhealthy := baseline.sampleCount > 0 ∧ baseline.errorRate > 0.10
  if ap.absoluteErrorRateGt > 0.0 ∧ target.errorRate > ap.absoluteErrorRateGt then
    some (.errorRate, "absolute_error_rate=" ++ toString target.errorRate ++ " > " ++
      toString ap.absoluteErrorRateGt)
  else if ap.absoluteP99LatencyMsGt > 0.0 ∧ target.p99LatencyMs > ap.absoluteP99LatencyMsGt then
    some (.latencyRatio, "absolute_p99=" ++ toString target.p99LatencyMs ++ " > " ++
      toString ap.absoluteP99LatencyMsGt)
  else if ¬ baselineUnhealthy ∧ ap.errorRateGt > 0.0 ∧ baseline.sampleCount > 0 ∧
      target.errorRate - baseline.errorRate > ap.errorRateGt then
    some (.errorRate, "error_rate_delta=" ++ toString (target.errorRate - baseline.errorRate) ++
      " > " ++ toString ap.errorRateGt)
  else if ¬ baselineUnhealthy ∧ ap.p99LatencyRatioGt > 0.0 ∧ baseline.p99LatencyMs > 0.0 ∧
      target.p99LatencyMs / baseline.p99LatencyMs > ap.p99LatencyRatioGt then
    some (.latencyRatio, "latency_ratio=" ++
      toString (target.p99LatencyMs / baseline.p99LatencyMs) ++ " > " ++
      toString ap.p99LatencyRatioGt)
  else none

def observationWindow (obs : ObservationPolicy) : ℤ :=
  max 1 (if obs.minDurationSeconds > 0 then obs.minDurationSeconds else 60)

variable (d : ControllerDeps)

/-- the breach of the current stage that `evaluateStage` acts on, if any -/
def observedBreach (readings : Readings) (wallNowMs : ℤ)
    (record : RolloutRecord) : Option (PauseReason × String) :=
  match currentStage record with
  | none => none
  | some stage =>
    if record.pausedAt > 0 ∧ wallNowMs - record.pausedAt < d.pauseCooldownMs then none
    else if wallNowMs - record.stageStartedAt < stage.observation.minDurationSeconds * 1000 then
      none
    else
      match readings.metrics with
      | none => none
      | some forVersion =>
        let window := observationWindow stage.observation
        let target := forVersion record.targetVersionId window
        if target.sampleCount < stage.observation.minSampleCount then none
        else
          breach stage.autoPause target (if record.previousActiveVersionId = "" then {}
            else forVersion record.previousActiveVersionId window)

def evaluateStage (rolloutId : String) (readings : Readings) (wallNowMs : ℤ) : Prog RolloutResult :=
  withRollout rolloutId fun record =>
    if record.status ≠ .progressing then pure { record }
    else
      match observedBreach d readings wallNowMs record with
      | none => pure { record }
      | some (reason, detail) =>
        match attemptRolloutTransition record.status .pauseAuto false with
        | none => pure { record }
        | some next =>
          persist { record with
            status := next
            pausedAt := wallNowMs
            pauseReason := reason
            pauseDetail := detail }

/-- a paused rollout whose grace period is over -/
def autoRollbackDue (readings : Readings) (wallNowMs : ℤ) (record : RolloutRecord) : Prop :=
  record.status = .paused ∧ readings.autoRollbackEnabled ∧ record.spec.autoRollbackOnPause ∧
    record.spec.autoRollbackGraceSeconds * 1000 ≤ wallNowMs - record.pausedAt

instance (readings : Readings) (wallNowMs : ℤ) (record : RolloutRecord) :
    Decidable (autoRollbackDue readings wallNowMs record) :=
  inferInstanceAs (Decidable (_ ∧ _ ∧ _ ∧ _))

/-- the config is restored before the rollout is stored as failed -/
def evaluateAutoRollback (rolloutId : String) (readings : Readings)
    (wallNowMs : ℤ) : Prog RolloutResult :=
  withRollout rolloutId fun record =>
    if ¬ autoRollbackDue readings wallNowMs record then pure { record }
    else
      match attemptRolloutTransition record.status .autoRollback false with
      | none => pure { record }
      | some next => do
        let rolledBack := { record with
          status := next
          pauseReason := .autoRollback
          completedAt := wallNowMs }
        restorePrevious rolledBack d.systemUserId readings.configNow
        persist rolledBack

/-! ## the ticker -/

/-- a rollout whose target is active already is completed, from the listed record -/
def reconcileActivatedRollout (record : RolloutRecord) (wallNowMs : ℤ) : Prog Bool := do
  let active ← ask .getActiveConfig
  if active.map (·.versionId) ≠ some record.targetVersionId then pure false
  else
    match attemptRolloutTransition record.status .promote true with
    | none => pure false
    | some next => ask (.updateRollout { record with status := next, completedAt := wallNowMs })

def tickQuery : RolloutQuery := { statuses := [.progressing, .paused], limit := 500 }

def tickOne (readings : String → Readings) (wallNowMs : ℤ) (record : RolloutRecord) : Prog Unit :=
  if record.status = .progressing then do
    let reconciled ← reconcileActivatedRollout record wallNowMs
    if reconciled then pure ()
    else do
      let _ ← evaluateStage d record.rolloutId (readings record.rolloutId) wallNowMs
      pure ()
  else if record.status = .paused then do
    let _ ← evaluateAutoRollback d record.rolloutId (readings record.rolloutId) wallNowMs
    pure ()
  else pure ()

def tickLoop (d : ControllerDeps) (readings : String → Readings) (wallNowMs : ℤ) :
    List RolloutRecord → Prog Unit
  | [] => pure ()
  | record :: rest => do
    tickOne d readings wallNowMs record
    tickLoop d readings wallNowMs rest

def onTick (readings : String → Readings) (wallNowMs : ℤ) : Prog Unit := do
  let rollouts ← ask (.listRollouts tickQuery)
  tickLoop d readings wallNowMs rollouts

/-! ## requests -/

/-- what can be asked of the control plane, with what it reads from its surroundings -/
inductive ControlRequest where
  | config (r : Request)
  | create (spec : RolloutSpec) (creator : String) (quotaAllowed : Bool) (rolloutId : String)
  | start (rolloutId actor : String) (now : ℤ)
  | promote (rolloutId actor : String) (now configNow : ℤ)
  | pause (rolloutId actor comment : String) (now : ℤ)
  | resume (rolloutId actor : String) (now : ℤ)
  | abort (rolloutId actor : String) (now configNow : ℤ)
  | tick (readings : String → Readings) (wallNowMs : ℤ)

def discard {α : Type} (p : Prog α) : Prog Unit := do
  let _ ← p
  pure ()

def ControlRequest.prog (d : Deps) (c : ControllerDeps) : ControlRequest → Prog Unit
  | .config r => discard (r.prog d)
  | .create spec creator quotaAllowed rolloutId =>
    discard (createRollout spec creator quotaAllowed rolloutId)
  | .start rolloutId actor now => discard (startRollout rolloutId actor now)
  | .promote rolloutId actor now configNow => discard (promoteStage rolloutId actor now configNow)
  | .pause rolloutId actor comment now => discard (pauseRollout rolloutId actor comment now)
  | .resume rolloutId actor now => discard (resumeRollout rolloutId actor now)
  | .abort rolloutId actor now configNow => discard (abortRollout rolloutId actor now configNow)
  | .tick readings wallNowMs => onTick c readings wallNowMs

def perform (d : Deps) (c : ControllerDeps) (s : MemoryPersistentStore) (r : ControlRequest) :
    MemoryPersistentStore :=
  ((r.prog d c).run exec s).2

end AegisGate.ControlPlane
