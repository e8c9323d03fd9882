import AegisGate.Autonomy.ApprovalWorkflow
import AegisGate.Lib.Proc

/-!
# The operations of the approval workflow, call by call

`approve`, `reject`, `apply` and `rollback` of `approval_workflow.cpp` read the proposal from the
queue, decide, call an applier and write the whole proposal back, with no lock around it.  Here they
are programs over these calls; an applier may throw, and then the operation ends there.

* `QueueCall`, `exec`  the calls, and what they do to the queue and the targets;
* `StepApplier`  an applier whose calls may throw;
* `approveProg`, ...  the four operations.

Alone, over appliers that do not throw, the programs are the functions of
`AegisGate.Autonomy.ApprovalWorkflow` (`prog_alone`).
-/

namespace AegisGate

open Json Proc
namespace Autonomy

/-- `IApprovalApplier`, with the exceptions of its calls -/
structure StepApplier (τ : Type) where
  apply : ApprovalProposal → Bool → τ → Except TypeError ApplyResult × τ
  rollback : ApprovalProposal → τ → Except TypeError ApplyResult × τ

open StepApplier

structure WorkflowDeps (τ : Type) where
  digest : Digest
  hasAudit : Bool
  appliers : AutonomySource → Option (StepApplier τ)

/-- what the operations share; `applied` has the ids of the proposals whose applier was called -/
structure Shared (τ : Type) where
  queue : ApprovalQueue
  targets : τ
  applied : List String := []

inductive QueueCall where
  | get (id : String)
  | update (p : ApprovalProposal)
  | apply (p : ApprovalProposal)
  | rollback (p : ApprovalProposal)

abbrev QueueCall.Answer : QueueCall → Type
  | .get _ => Option ApprovalProposal
  | .update _ => Bool
  | .apply _ => Except TypeError ApplyResult
  | .rollback _ => Except TypeError ApplyResult

abbrev Prog := Proc QueueCall QueueCall.Answer

abbrev ask (c : QueueCall) : Prog c.Answer := op c

section
variable {τ : Type} (d : WorkflowDeps τ)

def exec : (c : QueueCall) → Shared τ → c.Answer × Shared τ
  | .get id, s => (s.queue.get id, s)
  | .update p, s => ((s.queue.update d.digest p).2, { s with queue := (s.queue.update d.digest p).1 })
  | .apply p, s =>
    match d.appliers p.source with
    | none => (.ok (.fail "" ""), { s with applied := p.id :: s.applied })
    | some a =>
      ((a.apply p false s.targets).1,
        { s with targets := (a.apply p false s.targets).2, applied := p.id :: s.applied })
  | .rollback p, s =>
    match d.appliers p.source with
    | none => (.ok (.fail "" ""), s)
    | some a => ((a.rollback p s.targets).1, { s with targets := (a.rollback p s.targets).2 })

variable (p : ApprovalProposal)

/-- the value an operation returns after its audit row, which may throw -/
def audited (ret : Bool) : Except TypeError Bool :=
  if d.hasAudit then (Workflow.auditDetail p).map (fun _ => ret) else .ok ret

/-! ## the four operations -/

/-- the operation fails when the store refuses the moved proposal -/
def moved (accepted : Bool) : Except TypeError Bool :=
  if !accepted then .ok false else audited d p true

def moveProg : Prog (Except TypeError Bool) := do
  let accepted ← ask (.update p)
  pure (moved d p accepted)

section
variable (enabled : Bool)

def approveProg (nowMs : Int) (id reviewerUserId : String) : Prog (Except TypeError Bool) :=
  if !enabled then pure (.ok false)
  else do
    let cur ← ask (.get id)
    match cur with
    | none => pure (.ok false)
    | some cur =>
      if cur.state ≠ .proposed then pure (.ok false)
      else
        moveProg d { cur with
          state := .approved, reviewerUserId, reviewedAtMs := nowMs }

def rejectProg (nowMs : Int) (id reviewerUserId reason : String) : Prog (Except TypeError Bool) :=
  if !enabled then pure (.ok false)
  else do
    let cur ← ask (.get id)
    match cur with
    | none => pure (.ok false)
    | some cur =>
      if cur.state ≠ .proposed ∧ cur.state ≠ .approved then pure (.ok false)
      else
        moveProg d { cur with
          state := .rejected, reviewerUserId, reviewedAtMs := nowMs,
          rejectReason := reason }

/-- the part of `apply` after the state, the payload digest and the applier have been checked -/
def runApplierProg (cur : ApprovalProposal) : Prog (Except TypeError Bool) := do
  let result ← ask (.apply cur)
  match result with
  | .error e => pure (.error e)
  | .ok r =>
    if r.success then moveProg d { cur with state := .applied }
    else do
      let back ← ask (.rollback cur)
      match back with
      | .error e => pure (.error e)
      | .ok _ => do
        -- a refused update is ignored here
        let _accepted ← ask (.update { cur with state := .rolledBack })
        pure (audited d { cur with state := .rolledBack } false)

def applyProg (id : String) : Prog (Except TypeError Bool) :=
  if !enabled then pure (.ok false)
  else do
    let cur ← ask (.get id)
    match cur with
    | none => pure (.ok false)
    | some cur =>
      if cur.state ≠ .approved then pure (.ok false)
      else if !verifyPayloadSha256 d.digest cur then pure (audited d cur false)
      else if (d.appliers cur.source).isNone then pure (audited d cur false)
      else runApplierProg d cur

def rollbackProg (id : String) : Prog (Except TypeError Bool) :=
  if !enabled then pure (.ok false)
  else do
    let cur ← ask (.get id)
    match cur with
    | none => pure (.ok false)
    | some cur =>
      if cur.state ≠ .applied then pure (.ok false)
      else if (d.appliers cur.source).isNone then pure (audited d cur false)
      else do
        let back ← ask (.rollback cur)
        match back with
        | .error e => pure (.error e)
        | .ok _ => moveProg d { cur with state := .rolledBack }

end

inductive ApprovalRequest where
  | approve (enabled : Bool) (nowMs : Int) (id reviewerUserId : String)
  | reject (enabled : Bool) (nowMs : Int) (id reviewerUserId reason : String)
  | apply (enabled : Bool) (id : String)
  | rollback (enabled : Bool) (id : String)

def ApprovalRequest.prog : ApprovalRequest → Prog (Except TypeError Bool)
  | .approve enabled nowMs id reviewer => approveProg d enabled nowMs id reviewer
  | .reject enabled nowMs id reviewer reason => rejectProg d enabled nowMs id reviewer reason
  | .apply enabled id => applyProg d enabled id
  | .rollback enabled id => rollbackProg d enabled id

end

/-! ## one operation alone -/

section
variable {τ : Type} {d : WorkflowDeps τ} {a : StepApplier τ} {p : ApprovalProposal}

def StepApplier.ofApplier (env : Env) (a : Applier τ) : StepApplier τ where
  apply p dryRun t := (.ok (a.apply env p dryRun t).2, (a.apply env p dryRun t).1)
  rollback p t := (.ok (a.rollback env p t).2, (a.rollback env p t).1)

def depsOf (dg : Digest) (env : Env) (w : Workflow τ) : WorkflowDeps τ where
  digest := dg
  hasAudit := w.audit.isSome
  appliers source := (w.appliers source).map (ofApplier env)

lemma depsOf_appliers {dg : Digest} {env : Env} {w : Workflow τ} {source : AutonomySource}
    {o : Option (Applier τ)} (h : w.appliers source = o) :
    (depsOf dg env w).appliers source = o.map (ofApplier env) := by
  subst h
  rfl

/-- the same answer, the same queue and the same targets -/
def Agrees (o : Workflow τ × Except TypeError Bool)
    (r : Except TypeError Bool × Shared τ) : Prop :=
  o.1.queue = some r.2.queue ∧ o.1.targets = r.2.targets ∧ o.2 = r.1

variable {dg : Digest} {env : Env} {w : Workflow τ} {q : ApprovalQueue} {log : List String}

lemma agrees_audit (hq : w.queue = some q) (d : WorkflowDeps τ) (hd : d.hasAudit = w.audit.isSome)
    (p : ApprovalProposal) (action : String) (ret : Bool) :
    Agrees (Workflow.auditTransition dg w p action ret) (audited d p ret, ⟨q, w.targets, log⟩) := by
  unfold Workflow.auditTransition audited
  rw [hd]
  cases w.audit with
  | none => exact ⟨hq, rfl, rfl⟩
  | some rows =>
    cases Workflow.auditDetail p with
    | error e | ok j => exact ⟨hq, rfl, rfl⟩

lemma update_cases (dg : Digest) (q : ApprovalQueue) (p : ApprovalProposal) :
    q.update dg p = (q, false) ∨ ∃ rows, q.update dg p = (⟨rows, q.cache.insert p.id p⟩, true) := by
  unfold ApprovalQueue.update
  split
  · exact .inl rfl
  · cases q.store with
    | none => exact .inr ⟨none, rfl⟩
    | some rows =>
      simp only
      cases updateApprovalProposal rows (toRecord dg p) with
      | none => exact .inl rfl
      | some rows' => exact .inr ⟨some rows', rfl⟩

lemma run_moveProg (d : WorkflowDeps τ) (p : ApprovalProposal) (s : Shared τ) :
    (moveProg d p).run (exec d) s = (moved d p (s.queue.update d.digest p).2,
        { s with queue := (s.queue.update d.digest p).1 }) := rfl

section
variable (hq : w.queue = some q)
include hq

lemma agrees_commit (d : WorkflowDeps τ) (hd : d.hasAudit = w.audit.isSome)
    (p : ApprovalProposal) (action : String) :
    Agrees (w.commit d.digest q p action) ((moveProg d p).run (exec d) ⟨q, w.targets, log⟩) := by
  rw [run_moveProg]
  unfold Workflow.commit
  rcases update_cases d.digest q p with hu | ⟨rows, hu⟩
  · rw [hu]
    exact ⟨hq, rfl, rfl⟩
  · rw [hu]
    exact agrees_audit (w := { w with queue := some ⟨rows, q.cache.insert p.id p⟩ }) rfl d hd p
      action true

lemma agrees_read {id : String}
    {f : ApprovalQueue → ApprovalProposal → Workflow τ × Except TypeError Bool}
    {k : Option ApprovalProposal → Prog (Except TypeError Bool)} (hnone : k none = pure (.ok false))
    (hsome : ∀ cur, Agrees (f q cur) ((k (some cur)).run (exec d) ⟨q, w.targets, log⟩)) : Agrees
      (if !w.checkEnabled env then (w, .ok false) else
        match w.queue with
        | none => (w, .ok false)
        | some q =>
          match q.get id with
          | none => (w, .ok false)
          | some cur => f q cur)
      ((if !w.checkEnabled env then pure (.ok false) else ask (.get id) >>= k : Prog _).run
        (exec d) ⟨q, w.targets, log⟩) := by
  cases w.checkEnabled env with
  | false => exact ⟨hq, rfl, rfl⟩
  | true =>
    simp only [Bool.not_true, Bool.false_eq_true, if_false, hq, run_bind, run_op, exec]
    cases q.get id with
    | none =>
      rw [hnone]
      exact ⟨hq, rfl, rfl⟩
    | some cur => exact hsome cur

theorem run_approve (amb : Ambient) (id reviewer : String) :
    Agrees (w.approve dg env amb id reviewer)
      ((approveProg (depsOf dg env w) (w.checkEnabled env) amb.nowMs id reviewer).run
        (exec (depsOf dg env w)) ⟨q, w.targets, log⟩) := by
  refine agrees_read hq rfl fun cur => ?_
  simp only
  split
  · exact ⟨hq, rfl, rfl⟩
  · exact agrees_commit hq (depsOf dg env w) rfl _ "approve"

theorem run_reject (amb : Ambient) (id reviewer reason : String) :
    Agrees (w.reject dg env amb id reviewer reason)
      ((rejectProg (depsOf dg env w) (w.checkEnabled env) amb.nowMs id reviewer reason).run
        (exec (depsOf dg env w)) ⟨q, w.targets, log⟩) := by
  refine agrees_read hq rfl fun cur => ?_
  simp only
  split
  · exact ⟨hq, rfl, rfl⟩
  · exact agrees_commit hq (depsOf dg env w) rfl _ "reject"

end

lemma exec_apply (ha : d.appliers p.source = some a) (s : Shared τ) :
    exec d (.apply p) s = ((a.apply p false s.targets).1,
      { s with targets := (a.apply p false s.targets).2, applied := p.id :: s.applied }) := by
  simp only [exec, ha]

lemma exec_rollback (ha : d.appliers p.source = some a) (s : Shared τ) :
    exec d (.rollback p) s =
      ((a.rollback p s.targets).1, { s with targets := (a.rollback p s.targets).2 }) := by
  simp only [exec, ha]

section
variable (hq : w.queue = some q)
include hq

lemma run_runApplier {cur : ApprovalProposal} {a : Applier τ}
    (ha : w.appliers cur.source = some a) : Agrees (w.runApplier dg env q cur a)
      ((runApplierProg (depsOf dg env w) cur).run (exec (depsOf dg env w))
        ⟨q, w.targets, log⟩) := by
  unfold Workflow.runApplier runApplierProg
  simp only [run_bind, run_op, exec_apply (depsOf_appliers ha), ofApplier]
  cases (a.apply env cur false w.targets).2.success with
  | true =>
    exact agrees_commit (w := { w with targets := (a.apply env cur false w.targets).1 }) hq
      (depsOf dg env w) rfl _ "apply"
  | false =>
    simp only [Bool.false_eq_true, if_false, run_bind, run_op,
      exec_rollback (depsOf_appliers ha), ofApplier]
    exact agrees_audit (w := { w with
        targets := (a.rollback env cur (a.apply env cur false w.targets).1).1,
        queue := some (q.update dg { cur with state := .rolledBack }).1 })
      rfl (depsOf dg env w) rfl _ "apply_failed_rolled_back" false

theorem run_apply (id : String) :
    Agrees (w.apply dg env id) ((applyProg (depsOf dg env w) (w.checkEnabled env) id).run
        (exec (depsOf dg env w)) ⟨q, w.targets, log⟩) := by
  have hdg : (depsOf dg env w).digest = dg := rfl
  refine agrees_read hq rfl fun cur => ?_
  simp only [Workflow.findApplier, hdg]
  by_cases hs : cur.state ≠ .approved
  · simp only [if_pos hs]
    exact ⟨hq, rfl, rfl⟩
  simp only [if_neg hs]
  cases hv : verifyPayloadSha256 dg cur with
  | false => exact agrees_audit hq (depsOf dg env w) rfl cur _ false
  | true =>
    cases ha : w.appliers cur.source with
    | none =>
      rw [depsOf_appliers ha]
      exact agrees_audit hq (depsOf dg env w) rfl cur _ false
    | some a =>
      rw [depsOf_appliers ha]
      exact run_runApplier hq ha

theorem run_rollback (id : String) :
    Agrees (w.rollback dg env id) ((rollbackProg (depsOf dg env w) (w.checkEnabled env) id).run
        (exec (depsOf dg env w)) ⟨q, w.targets, log⟩) := by
  refine agrees_read hq rfl fun cur => ?_
  simp only [Workflow.findApplier]
  by_cases hs : cur.state ≠ .applied
  · simp only [if_pos hs]
    exact ⟨hq, rfl, rfl⟩
  simp only [if_neg hs]
  cases ha : w.appliers cur.source with
  | none =>
    rw [depsOf_appliers ha]
    exact agrees_audit hq (depsOf dg env w) rfl cur _ false
  | some a =>
    rw [depsOf_appliers ha]
    simp only [Option.map_some, Option.isNone_some, Bool.false_eq_true, if_false,
      run_bind, run_op, exec_rollback (depsOf_appliers ha), ofApplier]
    exact agrees_commit (w := { w with targets := (a.rollback env cur w.targets).1 }) hq
      (depsOf dg env w) rfl _ "rollback"

end

/-- run with nothing in between, the programs are the functions of the workflow -/
theorem prog_alone (dg : Digest) (env : Env) (w : Workflow τ) (q : ApprovalQueue)
    (log : List String) (amb : Ambient) (id reviewer reason : String) :
    let w := { w with queue := some q }
    let d := depsOf dg env w
    let alone (p : Prog (Except TypeError Bool)) := p.run (exec d) ⟨q, w.targets, log⟩
    Agrees (w.approve dg env amb id reviewer)
        (alone (approveProg d (w.checkEnabled env) amb.nowMs id reviewer)) ∧
      Agrees (w.reject dg env amb id reviewer reason)
        (alone (rejectProg d (w.checkEnabled env) amb.nowMs id reviewer reason)) ∧
      Agrees (w.apply dg env id) (alone (applyProg d (w.checkEnabled env) id)) ∧
      Agrees (w.rollback dg env id) (alone (rollbackProg d (w.checkEnabled env) id)) :=
  ⟨run_approve rfl amb id reviewer, run_reject rfl amb id reviewer reason, run_apply rfl id,
    run_rollback rfl id⟩

end

end Autonomy
end AegisGate
