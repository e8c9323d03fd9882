import AegisGate.Autonomy.Proposal
import AegisGate.Lib.Run

/-!
# The approval workflow and its kill switch

`src/observe/autonomy/approval_workflow.cpp` and `base_autonomy_applier.cpp`.  The targets of
the appliers (tier overrides, budget caps, guard models, bandit modes, workflow runs) are one
value of an arbitrary type `τ`.

* `propose`, `approve`, `reject`, `apply`, `rollback`  the five operations;
* `Call`, `Workflow.step`, `Workflow.run`  sequences of them;
* `BaseApplier.toApplier`  the wrapper that reads the environment;
* `Untouched`  no proposal created or moved, no target changed.
-/

namespace AegisGate

open Json
namespace Autonomy

/-- the value of `AEGISGATE_DISABLE_AUTONOMY`, if it is set -/
abbrev Env := Option String

def isAutonomyEnabled (env : Env) : Bool := !decide (env = some "1")

structure ApplyResult where
  success : Bool
  errorCode : String := ""
  errorMessage : String := ""
  details : Json := .obj []

def ApplyResult.fail (code message : String) : ApplyResult :=
  { success := false, errorCode := code, errorMessage := message }

/-! ## appliers -/

structure Applier (τ : Type) where
  apply : Env → ApprovalProposal → Bool → τ → τ × ApplyResult
  rollback : Env → ApprovalProposal → τ → τ × ApplyResult

/-- what a subclass of `BaseAutonomyApplier` implements -/
structure BaseApplier (τ : Type) where
  applyImpl : ApprovalProposal → Bool → τ → τ × ApplyResult
  rollbackImpl : ApprovalProposal → τ → τ × ApplyResult

def autonomyDisabled : ApplyResult :=
  .fail "autonomy_disabled" "AEGISGATE_DISABLE_AUTONOMY=1"

def BaseApplier.toApplier {τ : Type} (b : BaseApplier τ) : Applier τ where
  apply env p dryRun t :=
    if isAutonomyEnabled env then b.applyImpl p dryRun t else (t, autonomyDisabled)
  rollback env p t :=
    if isAutonomyEnabled env then b.rollbackImpl p t else (t, autonomyDisabled)

/-! ## the workflow object -/

structure AuditEntry where
  requestId : String
  tenantId : String
  stage : String
  action : String
  detail : String
  deriving DecidableEq

structure Workflow (τ : Type) where
  queue : Option ApprovalQueue
  audit : Option (List AuditEntry)
  appliers : AutonomySource → Option (Applier τ)
  enabledOverride : Option Bool
  targets : τ

/-- what one call reads besides its arguments: the clock and the id generator -/
structure Ambient where
  nowMs : Int
  ulid : String

namespace Workflow

variable {τ : Type}

def checkEnabled (w : Workflow τ) (env : Env) : Bool :=
  match w.enabledOverride with
  | some b => b
  | none => isAutonomyEnabled env

def findApplier (w : Workflow τ) (source : AutonomySource) : Option (Applier τ) :=
  w.appliers source

/-- `detail` of an audit row; a trace that is neither an object nor null throws -/
def auditDetail (p : ApprovalProposal) : Except TypeError Json := do
  let d ← p.decisionTrace.setKey "state" (.str p.state.toString)
  let d ← d.setKey "source" (.str p.source.toString)
  let d ← d.setKey "subject" (.str p.subject)
  let d ← d.setKey "payload_sha256" (.str p.payloadSha256)
  let d ← d.setKey "reviewer_user_id" (.str p.reviewerUserId)
  if p.rejectReason ≠ "" then d.setKey "reject_reason" (.str p.rejectReason) else pure d

/-- the audit row of a transition, then the value the operation returns -/
def auditTransition {β : Type} (dg : Digest) (w : Workflow τ) (p : ApprovalProposal)
    (action : String) (ret : β) : Workflow τ × Except TypeError β :=
  match w.audit with
  | none => (w, .ok ret)
  | some log =>
    match auditDetail p with
    | .error e => (w, .error e)
    | .ok d =>
      ({ w with audit := some (log ++ [⟨p.id, "system", "autonomy", action, dg.dump d⟩]) }, .ok ret)

/-! ## the five operations -/

def fillProposal (amb : Ambient) (p : ApprovalProposal) : ApprovalProposal :=
  { p with
    id := if p.id = "" then amb.ulid else p.id
    proposedAtMs := if p.proposedAtMs = 0 then amb.nowMs else p.proposedAtMs
    proposerUserId := if p.proposerUserId = "" then "system" else p.proposerUserId
    state := .proposed }

variable (dg : Digest)

def sealProposal (p : ApprovalProposal) : ApprovalProposal :=
  { p with
    decisionTrace := maskDecisionTrace dg p.decisionTrace
    payloadSha256 := computePayloadSha256 dg p.payload }

def propose (dg : Digest) (env : Env) (amb : Ambient) (w : Workflow τ) (p : ApprovalProposal) :
    Workflow τ × Except TypeError String :=
  if !w.checkEnabled env then (w, .ok "")
  else
    match w.queue with
    | none => (w, .ok "")
    | some q =>
      if !(validateDecisionTrace p.decisionTrace).ok then (w, .ok "")
      else
        let p := sealProposal dg (fillProposal amb p)
        match q.insert dg p with
        | (q', id) =>
          if id = "" then (w, .ok "")
          else auditTransition dg { w with queue := some q' } p "propose" id

/-- write the moved proposal back; the operation fails when the store refuses it -/
def commit (w : Workflow τ) (q : ApprovalQueue) (cur : ApprovalProposal)
    (action : String) : Workflow τ × Except TypeError Bool :=
  match q.update dg cur with
  | (_, false) => (w, .ok false)
  | (q', true) => auditTransition dg { w with queue := some q' } cur action true

def approve (dg : Digest) (env : Env) (amb : Ambient) (w : Workflow τ)
    (id reviewerUserId : String) : Workflow τ × Except TypeError Bool :=
  if !w.checkEnabled env then (w, .ok false)
  else
    match w.queue with
    | none => (w, .ok false)
    | some q =>
      match q.get id with
      | none => (w, .ok false)
      | some cur =>
        if cur.state ≠ .proposed then (w, .ok false)
        else
          w.commit dg q { cur with
            state := .approved, reviewerUserId, reviewedAtMs := amb.nowMs }
            "approve"

def reject (dg : Digest) (env : Env) (amb : Ambient) (w : Workflow τ)
    (id reviewerUserId reason : String) : Workflow τ × Except TypeError Bool :=
  if !w.checkEnabled env then (w, .ok false)
  else
    match w.queue with
    | none => (w, .ok false)
    | some q =>
      match q.get id with
      | none => (w, .ok false)
      | some cur =>
        if cur.state ≠ .proposed ∧ cur.state ≠ .approved then (w, .ok false)
        else
          w.commit dg q { cur with
            state := .rejected, reviewerUserId, reviewedAtMs := amb.nowMs,
            rejectReason := reason }
            "reject"

/-- the part of `apply` after the state and the payload digest have been checked -/
def runApplier (env : Env) (w : Workflow τ) (q : ApprovalQueue)
    (cur : ApprovalProposal) (a : Applier τ) : Workflow τ × Except TypeError Bool :=
  match a.apply env cur false w.targets with
  | (t, r) =>
    if r.success then
      ({ w with targets := t } : Workflow τ).commit dg q { cur with state := .applied } "apply"
    else
      -- a refused update is ignored here: the audit row is written all the same
      let failed := { cur with state := .rolledBack }
      auditTransition dg
        { w with
          targets := (a.rollback env cur t).1
          queue := some (q.update dg failed).1 }
        failed "apply_failed_rolled_back" false

def apply (env : Env) (w : Workflow τ) (id : String) : Workflow τ × Except TypeError Bool :=
  if !w.checkEnabled env then (w, .ok false)
  else
    match w.queue with
    | none => (w, .ok false)
    | some q =>
      match q.get id with
      | none => (w, .ok false)
      | some cur =>
        if cur.state ≠ .approved then (w, .ok false)
        else if !verifyPayloadSha256 dg cur then
          auditTransition dg w cur "apply_tampered_rejected" false
        else
          match w.findApplier cur.source with
          | none => auditTransition dg w cur "apply_no_applier" false
          | some a => w.runApplier dg env q cur a

def rollback (dg : Digest) (env : Env) (w : Workflow τ) (id : String) :
    Workflow τ × Except TypeError Bool :=
  if !w.checkEnabled env then (w, .ok false)
  else
    match w.queue with
    | none => (w, .ok false)
    | some q =>
      match q.get id with
      | none => (w, .ok false)
      | some cur =>
        if cur.state ≠ .applied then (w, .ok false)
        else
          match w.findApplier cur.source with
          | none => auditTransition dg w cur "rollback_no_applier" false
          | some a =>
            ({ w with targets := (a.rollback env cur w.targets).1 } : Workflow τ).commit dg q
              { cur with state := .rolledBack } "rollback"

end Workflow

/-! ## sequences of calls -/

inductive Call where
  | propose (p : ApprovalProposal)
  | approve (id reviewerUserId : String)
  | reject (id reviewerUserId reason : String)
  | apply (id : String)
  | rollback (id : String)

namespace Workflow

variable {τ : Type}

/-- the workflow after one call, whether it returns or throws -/
def step (dg : Digest) (env : Env) (w : Workflow τ) (c : Ambient × Call) : Workflow τ :=
  match c.2 with
  | .propose p => (w.propose dg env c.1 p).1
  | .approve id reviewer => (w.approve dg env c.1 id reviewer).1
  | .reject id reviewer reason => (w.reject dg env c.1 id reviewer reason).1
  | .apply id => (w.apply dg env id).1
  | .rollback id => (w.rollback dg env id).1

def run (dg : Digest) (env : Env) (w : Workflow τ) (calls : List (Ambient × Call)) : Workflow τ :=
  Run.exec (step dg env) w calls

def stateOf (w : Workflow τ) (id : String) : Option ApprovalState × Option String :=
  match w.queue with
  | none => (none, none)
  | some q => q.stateOf id

structure Untouched (w w' : Workflow τ) : Prop where
  proposals : ∀ id, w'.stateOf id = w.stateOf id
  targets : w'.targets = w.targets

lemma Untouched.refl (w : Workflow τ) : Untouched w w := ⟨fun _ => rfl, rfl⟩

/-- a closed guard makes every operation return before it reads the queue -/
lemma step_disabled (dg : Digest) (env : Env) (w : Workflow τ)
    (h : w.checkEnabled env = false ∨ w.queue = none) (c : Ambient × Call) :
    step dg env w c = w := by
  obtain ⟨amb, call⟩ := c
  rcases h with h | h <;> cases call <;> simp [step, propose, approve, reject, apply, rollback, h]

lemma checkEnabled_killed (w : Workflow τ) :
    w.checkEnabled (some "1") = false ↔ w.enabledOverride ≠ some true := by
  unfold checkEnabled
  cases w.enabledOverride with
  | none => simp [isAutonomyEnabled]
  | some b => simp

/-! ## the second layer: appliers that read the environment -/

section
variable (dg : Digest) (env : Env) (w : Workflow τ) (amb : Ambient) (q : ApprovalQueue)
  (p cur : ApprovalProposal) (action : String) {β : Type}

structure Frame (w w' : Workflow τ) : Prop where
  targets : w'.targets = w.targets
  appliers : w'.appliers = w.appliers

open Workflow.Frame

lemma Frame.refl : Frame w w := ⟨rfl, rfl⟩

lemma Frame.trans {w1 w2 w3 : Workflow τ} (h : Frame w1 w2) (h' : Frame w2 w3) : Frame w1 w3 :=
  ⟨h'.targets.trans h.targets, h'.appliers.trans h.appliers⟩

lemma auditTransition_queue (ret : β) : (auditTransition dg w p action ret).1.queue = w.queue := by
  unfold auditTransition
  split
  · rfl
  · split <;> rfl

lemma auditTransition_frame (ret : β) : Frame w (auditTransition dg w p action ret).1 := by
  unfold auditTransition
  split
  · exact refl w
  split
  · exact refl w
  · exact ⟨rfl, rfl⟩

lemma Frame.audit {w0 w : Workflow τ} (h : Frame w0 w) (dg : Digest)
    (p : ApprovalProposal) (action : String) (ret : β) :
    Frame w0 (auditTransition dg w p action ret).1 :=
  h.trans (auditTransition_frame dg w p action ret)

lemma commit_frame : Frame w (w.commit dg q cur action).1 := by
  unfold commit
  split
  · exact Frame.refl w
  · refine Frame.audit ?_ dg cur action true
    exact ⟨rfl, rfl⟩

section
variable (w : Workflow τ)

lemma propose_frame (p : ApprovalProposal) : Frame w (w.propose dg env amb p).1 := by
  unfold propose
  split
  · exact Frame.refl w
  split
  · exact Frame.refl w
  split
  · exact Frame.refl w
  · dsimp only
    split
    · exact Frame.refl w
    · refine Frame.audit ?_ dg _ "propose" _
      exact ⟨rfl, rfl⟩

lemma on_proposal {env : Env} {w : Workflow τ} {id : String}
    {f : ApprovalQueue → ApprovalProposal → Workflow τ × Except TypeError Bool}
    (h : ∀ q cur, Frame w (f q cur).1) : Frame w
      (if !w.checkEnabled env then (w, .ok false) else
        match w.queue with
        | none => (w, .ok false)
        | some q =>
          match q.get id with
          | none => (w, .ok false)
          | some cur => f q cur).1 := by
  split
  · exact refl w
  split
  · exact refl w
  split
  · exact refl w
  · exact h _ _

lemma approve_frame (id reviewer : String) : Frame w (w.approve dg env amb id reviewer).1 := by
  refine on_proposal fun q cur => ?_
  split
  · exact refl w
  · exact commit_frame dg w _ _ "approve"

lemma reject_frame (id reviewer reason : String) :
    Frame w (w.reject dg env amb id reviewer reason).1 := by
  refine on_proposal fun q cur => ?_
  split
  · exact refl w
  · exact commit_frame dg w _ _ "reject"

def BaseRegistered : Prop :=
  ∀ source a, w.findApplier source = some a → ∃ b : BaseApplier τ, a = b.toApplier

end

lemma runApplier_frame (b : BaseApplier τ) :
    Frame w (w.runApplier dg (some "1") q cur b.toApplier).1 := by
  unfold runApplier
  -- the wrapper reports failure, so only the rollback branch is left
  refine Frame.audit ?_ dg { cur with state := .rolledBack } "apply_failed_rolled_back" false
  exact ⟨rfl, rfl⟩

section
variable (hb : w.BaseRegistered)
include hb

lemma apply_frame (id : String) : Frame w (w.apply dg (some "1") id).1 := by
  refine on_proposal fun q cur => ?_
  split
  · exact refl w
  split
  · exact auditTransition_frame dg w _ "apply_tampered_rejected" false
  split
  · exact auditTransition_frame dg w _ "apply_no_applier" false
  · next a ha =>
    obtain ⟨b, rfl⟩ := hb cur.source a ha
    exact runApplier_frame dg w q cur b

lemma rollback_frame (id : String) : Frame w (w.rollback dg (some "1") id).1 := by
  refine on_proposal fun q cur => ?_
  split
  · exact refl w
  split
  · exact auditTransition_frame dg w _ "rollback_no_applier" false
  · next a ha =>
    obtain ⟨b, rfl⟩ := hb cur.source a ha
    refine trans ?_ (commit_frame dg _ _ _ "rollback")
    exact ⟨rfl, rfl⟩

lemma step_frame (c : Ambient × Call) : Frame w (step dg (some "1") w c) := by
  obtain ⟨amb, call⟩ := c
  cases call with
  | propose p => exact propose_frame dg (some "1") amb w p
  | approve id reviewer => exact approve_frame dg (some "1") amb w id reviewer
  | reject id reviewer reason => exact reject_frame dg (some "1") amb w id reviewer reason
  | apply id => exact apply_frame dg w hb id
  | rollback id => exact rollback_frame dg w hb id

lemma run_targets (calls : List (Ambient × Call)) :
    (run dg (some "1") w calls).targets = w.targets := by
  have inv : Frame w (run dg (some "1") w calls) := by
    refine Run.exec_inv (P := fun _ => True) (I := fun w' => Frame w w') ?_ calls w
      (refl w) fun _ _ => trivial
    intro w' c _ hw
    have hb' : w'.BaseRegistered := by
      intro source a ha
      rw [findApplier, hw.appliers] at ha
      exact hb source a ha
    exact hw.trans (step_frame dg w' hb' c)
  exact inv.targets

end

/-- the environment alone protects the targets of `BaseAutonomyApplier`s, in every run and
under every override -/
theorem killSwitch_spares_targets (bases : AutonomySource → Option (BaseApplier τ))
    (calls : List (Ambient × Call)) : (run dg (some "1")
      { w with appliers := fun source => (bases source).map (·.toApplier) } calls).targets =
        w.targets := by
  refine run_targets dg _ (fun source a ha => ?_) calls
  obtain ⟨b, -, rfl⟩ := Option.map_eq_some_iff.1 ha
  exact ⟨b, rfl⟩

end

/-! ## the switch and the override -/

def minimalTrace : Json :=
  .obj [("source_id", .str "s"), ("algorithm_name", .str "a"), ("input_hash_sha256", .str "h"),
    ("proposed_at_ms", .int 1)]

lemma validate_minimalTrace : (validateDecisionTrace minimalTrace).ok := by decide

lemma propose_stores (dg : Digest) (env : Env) (amb : Ambient) (w : Workflow τ)
    (q : ApprovalQueue) (hq : w.queue = some q) (he : w.checkEnabled env) (id : String)
    (hid : id ≠ "") (hc : q.get id = none) (hs : q.store.bind (AList.lookup id) = none) :
    ((w.propose dg env amb { id, decisionTrace := minimalTrace }).1.stateOf id).1
      = some .proposed := by
  have hp : (sealProposal dg (fillProposal amb { id, decisionTrace := minimalTrace })).id = id := by
    simp [sealProposal, fillProposal, hid]
  obtain ⟨hret, hget⟩ := q.insert_unused dg _ (hp.symm ▸ hid) (hp.symm ▸ hc) (hp.symm ▸ hs)
  rw [hp] at hret hget
  simp only [propose, he, hq, validate_minimalTrace, Bool.not_true, Bool.false_eq_true, if_false]
  rw [hret, if_neg hid]
  simp only [stateOf, auditTransition_queue, ApprovalQueue.stateOf, hget]
  rfl

/-- under `AEGISGATE_DISABLE_AUTONOMY=1` nothing moves in any run exactly when the override is not
`true` or there is no queue -/
theorem killSwitch_wins_iff (dg : Digest) (w : Workflow τ) :
    (∀ calls, Untouched w (run dg (some "1") w calls))
      ↔ w.enabledOverride ≠ some true ∨ w.queue = none := by
  constructor
  · intro h
    by_contra hne
    obtain ⟨ho, hq⟩ := not_or.1 hne
    obtain ⟨q, hq⟩ := Option.ne_none_iff_exists'.1 hq
    have ho : w.enabledOverride = some true := not_not.1 ho
    obtain ⟨id, hid, hc, hs⟩ := q.exists_unused
    have he : w.checkEnabled (some "1") := by simp [checkEnabled, ho]
    have hnew := propose_stores dg (some "1") ⟨0, ""⟩ w q hq he id hid hc hs
    have hold := (h [(⟨0, ""⟩, .propose { id, decisionTrace := minimalTrace })]).proposals id
    have hnone : (w.stateOf id).1 = none := by simp [stateOf, hq, ApprovalQueue.stateOf, hc]
    rw [← hold] at hnone
    exact absurd (hnew.symm.trans hnone) (by simp)
  · intro h calls
    have hfixed : run dg (some "1") w calls = w :=
      Run.exec_fixed (step_disabled dg _ w (h.imp_left (checkEnabled_killed w).2)) calls
    rw [hfixed]
    exact Untouched.refl w

/-- prints and hashes the empty payload, masks nothing -/
def sampleDigest : Digest where
  dump := fun _ => "\x7b\x7d"
  sha256 := fun _ => "44136fa355b3678a1146ad16f7e8649e94fb4fc21fe77e8310c060f61caaff8a"
  mask := id

/-- the wiring of the gateway with `autonomy.enabled: true` -/
def configuredWorkflow : Workflow Nat where
  queue := some .fresh
  audit := none
  appliers := fun _ => none
  enabledOverride := some true
  targets := 0

/-- one proposal, then its approval, both under the kill switch -/
def overriddenCalls : List (Ambient × Call) :=
  [(⟨1, "01"⟩, .propose { id := "p1", decisionTrace := minimalTrace }),
   (⟨2, "02"⟩, .approve "p1" "alice")]

theorem killSwitch_overridden :
    (run sampleDigest (some "1") configuredWorkflow overriddenCalls).stateOf "p1"
        = (some .approved, none) ∧ ¬ Untouched configuredWorkflow
          (run sampleDigest (some "1") configuredWorkflow overriddenCalls) := by
  have hstate : (run sampleDigest (some "1") configuredWorkflow overriddenCalls).stateOf "p1"
      = (some .approved, none) := by decide
  refine ⟨hstate, fun h => ?_⟩
  have hsame := h.proposals "p1"
  exact absurd hsame (by decide)

end Workflow

end Autonomy
end AegisGate
