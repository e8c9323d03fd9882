import Mathlib.Data.Int.Notation
import Mathlib.Data.Nat.Notation

/-!
# Rollouts and their state machine

A rollout brings one approved config version into service, stage by stage.  The records are those of
`control_plane/rollout/rollout_record.h`, the transition function is that of
`control_plane/rollout/rollout_state_machine.cpp`.

* `RolloutSpec`, `RolloutRecord`  what the creator asked for, and how far the rollout has come;
* `attemptRolloutTransition`  the status after an action, or none.
-/

namespace AegisGate.ControlPlane

inductive RolloutStatus where
  | pending
  | progressing
  | paused
  | completed
  | failed
  | aborted
  deriving DecidableEq, Repr

def rolloutStatusToString : RolloutStatus → String
  | .pending => "PENDING"
  | .progressing => "PROGRESSING"
  | .paused => "PAUSED"
  | .completed => "COMPLETED"
  | .failed => "FAILED"
  | .aborted => "ABORTED"

inductive PauseReason where
  | unspecified
  | manual
  | errorRate
  | latencyRatio
  | autoRollback
  deriving DecidableEq, Repr

structure ScopeSelector where
  tenantGlobs : List String := []
  regions : List String := []
  percentage : ℤ := 0

structure ObservationPolicy where
  minDurationSeconds : ℤ := 0
  minSampleCount : ℤ := 0

/-- thresholds that pause a rollout; a threshold that is not positive is off -/
structure AutoPausePolicy where
  errorRateGt : Float := 0.0
  p99LatencyRatioGt : Float := 0.0
  absoluteErrorRateGt : Float := 0.0
  absoluteP99LatencyMsGt : Float := 0.0

structure RolloutStageRecord where
  name : String := ""
  scope : ScopeSelector := {}
  observation : ObservationPolicy := {}
  autoPause : AutoPausePolicy := {}

structure RolloutSpec where
  targetVersionId : String := ""
  stages : List RolloutStageRecord := []
  stickyKey : String := "tenant_id"
  autoRollbackOnPause : Bool := true
  autoRollbackGraceSeconds : ℤ := 1800
  creatorComment : String := ""

structure RolloutRecord where
  rolloutId : String := ""
  targetVersionId : String := ""
  previousActiveVersionId : String := ""
  spec : RolloutSpec := {}
  status : RolloutStatus := .pending
  currentStageIndex : ℤ := 0
  startedAt : ℤ := 0
  stageStartedAt : ℤ := 0
  pausedAt : ℤ := 0
  pauseReason : PauseReason := .unspecified
  pauseDetail : String := ""
  creator : String := ""
  lastActor : String := ""
  completedAt : ℤ := 0

/-- empty statuses mean every status -/
structure RolloutQuery where
  statuses : List RolloutStatus := []
  limit : ℤ := 50
  pageToken : String := ""

/-! ## the state machine -/

inductive RolloutAction where
  | start
  | promote
  | pauseManual
  | pauseAuto
  | resume
  | autoRollback
  | abort
  | fail
  deriving DecidableEq, Repr

def attemptRolloutTransition (source : RolloutStatus) (action : RolloutAction)
    (isLastStage : Bool) : Option RolloutStatus :=
  match source with
  | .pending =>
    match action with
    | .start => some .progressing
    | .abort => some .aborted
    | _ => none
  | .progressing =>
    match action with
    | .promote => some (if isLastStage then .completed else .progressing)
    | .pauseManual => some .paused
    | .pauseAuto => some .paused
    | .abort => some .aborted
    | .fail => some .failed
    | _ => none
  | .paused =>
    match action with
    | .resume => some .progressing
    | .autoRollback => some .failed
    | .abort => some .aborted
    | .fail => some .failed
    | _ => none
  | .completed => none
  | .failed => none
  | .aborted => none

/-- the statuses of which a target has at most one rollout -/
def isActiveStatus : RolloutStatus → Bool
  | .pending => true
  | .progressing => true
  | .paused => true
  | .completed => false
  | .failed => false
  | .aborted => false

section
variable {source target : RolloutStatus} {action : RolloutAction} {last : Bool}
  (h : attemptRolloutTransition source action last = some target)
include h

lemma attempt_source_active : isActiveStatus source := by
  cases source <;> first | rfl | cases h

lemma attempt_eq_some :
    match action with
    | .start => source = .pending ∧ target = .progressing
    | .promote => source = .progressing ∧ target = if last then .completed else .progressing
    | .pauseManual | .pauseAuto => source = .progressing ∧ target = .paused
    | .resume => source = .paused ∧ target = .progressing
    | .autoRollback => source = .paused ∧ target = .failed
    | .abort => target = .aborted
    | .fail => target = .failed := by
  cases source <;> cases action <;> cases h <;> simp

end

end AegisGate.ControlPlane
