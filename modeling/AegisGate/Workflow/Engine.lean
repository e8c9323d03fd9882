import AegisGate.Workflow.Dsl

/-!
# The workflow engine

`WorkflowEngine::execute` and the thread pool under it, as a machine that takes one event at a time:
the calling thread, the workers and the stragglers of timed-out tool calls move in any order.  What
is under `sched_mu` in the code is one event here, and so is each call to the outside, with its
answer in the event: the state store, the approval callback and the tool sandbox may return anything,
and may throw.

* `Pc`, `runBody`  the body of a node, `runNode` up to the lock;
* `Exec`, `perform`  the scheduler: phases of the caller, queue, in-degrees, `outstanding`;
* `step`  one event, with its effect on the store;
* `Env`, `Step`  the answers a store, a callback and a sandbox may give.

An exception that leaves the body of a node is swallowed by the worker (`ThreadPool::workerLoop`):
the job is gone and `outstanding` stays as it was.  Times, log lines and the delay between attempts
are left out; the attempt counter does not overflow.
-/

namespace AegisGate.Workflow

/-! ## the store, for one run -/

inductive RunStatus where
  | pending
  | running
  | waitingForApproval
  | succeeded
  | failed
  | cancelled
  | deadLetter
  deriving DecidableEq, Repr

def RunStatus.toString : RunStatus → String
  | pending => "pending"
  | running => "running"
  | waitingForApproval => "waiting_for_approval"
  | succeeded => "succeeded"
  | failed => "failed"
  | cancelled => "cancelled"
  | deadLetter => "dead_letter"

inductive NodeStatus where
  | pending
  | running
  | succeeded
  | failed
  | skipped
  | waitingForApproval
  | deadLetter
  deriving DecidableEq, Repr

structure RunRecord where
  runId : String
  workflowId : String
  dslHash : String
  status : RunStatus
  dslJson : Json
  contextJson : Json

structure NodeRun where
  nodeId : String
  attempt : Nat := 1
  status : NodeStatus := .pending
  resultJson : String := ""
  errorMessage : String := ""
  deriving DecidableEq, Repr

/-- the records of one run id -/
structure Store where
  run : Option RunRecord := none
  nodeRuns : List NodeRun := []

/-- the record of an attempt takes the place of the one before -/
def upsertNodeRun (r : NodeRun) : List NodeRun → List NodeRun
  | [] => [r]
  | x :: l =>
    if x.nodeId = r.nodeId ∧ x.attempt = r.attempt then r :: l else x :: upsertNodeRun r l

/-! ## calls to the outside -/

inductive Call where
  | createRun (r : RunRecord)
  | getRun
  | transitionRunStatus (status : RunStatus)
  | upsertNodeRun (r : NodeRun)
  | approval (node : NodeSpec)
  | execute (toolId : String) (args : Json)

/-- a tool call, as the node sees it: its result, or that it takes too long -/
inductive ToolReply where
  | success (output : String)
  | failure (errorMessage : String)
  | timeout
  deriving DecidableEq, Repr

inductive Answer where
  | quiet
  | returned
  | pause (b : Bool)
  | tool (r : ToolReply)
  | thrown
  deriving DecidableEq, Repr

/-- the answers a call can have; `quiet` is for a step without a call -/
def Answer.fits : Option Call → Answer → Bool
  | none, .quiet => true
  | some (.createRun _), .returned => true
  | some .getRun, .returned => true
  | some (.transitionRunStatus _), .returned => true
  | some (.upsertNodeRun _), .returned => true
  | some (.approval _), .pause _ => true
  | some (.execute _ _), .tool _ => true
  | some _, .thrown => true
  | _, _ => false

/-- a store call that throws has no effect; `createRun` keeps a run that is there -/
def Store.after (st : Store) : Option Call → Answer → Store
  | some (.createRun r), .returned => { st with run := st.run.or (some r) }
  | some (.transitionRunStatus status), .returned =>
    { st with run := st.run.map (fun r => { r with status }) }
  | some (.upsertNodeRun r), .returned =>
    { st with nodeRuns := Workflow.upsertNodeRun r st.nodeRuns }
  | _, _ => st

/-! ## the body of a node -/

structure EngineConfig where
  workerCount : Nat := 4
  stopOnFirstFailure : Bool := true
  maxConcurrentRuns : Int := 16

/-- one call of `execute`; `hasSandbox` and `hasCallback` tell which pointers are set -/
structure Setup where
  cfg : EngineConfig := {}
  hasSandbox : Bool := true
  hasCallback : Bool := true
  /-- `active_runs_` with this run counted -/
  activeRuns : Int := 1
  autonomyEnabled : Bool := true
  sha256 : Json → String
  runId : String
  dsl : WorkflowDsl
  context : Json

structure Flags where
  cancelled : Bool := false
  paused : Bool := false
  anyFailure : Bool := false
  completed : Nat := 0
  failed : Nat := 0
  /-- tool calls that timed out and still run -/
  detached : Nat := 0
  deriving DecidableEq, Repr

inductive Pc where
  | start
  | entered
  | askApproval
  | approved
  | attempt (k : Nat) (lastError : String)
  | opening (k : Nat)
  | callTool (k : Nat)
  | toolOk (k : Nat) (output : String)
  | toolFailed (k : Nat) (lastError : String)
  | deadLetter (k : Nat) (lastError : String)
  | finish (advance : Bool)
  deriving DecidableEq, Repr

def maxAttempts (n : NodeSpec) : Nat := (max 1 n.retry.maxAttempts.toInt).toNat

/-- the arguments of the tool, with the run and the node added by key -/
def toolArgs (runId : String) (n : NodeSpec) : Except Json.TypeError Json := do
  let args ← n.arguments.setKey "__run_id" (.str runId)
  args.setKey "node_id" (.str n.id)

section
variable (S : Setup) (n : NodeSpec)

def asks : Pc → Option Call
  | .start => none
  | .entered =>
    match n.type with
    | .humanApproval => some (.upsertNodeRun ⟨n.id, 1, .waitingForApproval, "", ""⟩)
    | .tool => none
    | _ => some (.upsertNodeRun ⟨n.id, 1, .skipped, "", ""⟩)
  | .askApproval => if S.hasCallback then some (.approval n) else none
  | .approved => some (.upsertNodeRun ⟨n.id, 1, .succeeded, "", ""⟩)
  | .attempt _ _ => none
  | .opening k => some (.upsertNodeRun ⟨n.id, k, .running, "", ""⟩)
  | .callTool _ =>
    match toolArgs S.runId n with
    | .error _ => none
    | .ok args => if S.hasSandbox then some (.execute n.toolId args) else none
  | .toolOk k output => some (.upsertNodeRun ⟨n.id, k, .succeeded, output, ""⟩)
  | .toolFailed k err => some (.upsertNodeRun ⟨n.id, k, .failed, "", err⟩)
  | .deadLetter k err => some (.upsertNodeRun ⟨n.id, max 1 (k - 1), .deadLetter, "", err⟩)
  | .finish _ => none

/-- what a tool node does with the reply; without a sandbox there is none -/
def toolNext (fl : Flags) (k : Nat) : Answer → Flags × Option Pc
  | .tool (.success output) => (fl, some (.toolOk k output))
  | .tool (.failure err) => (fl, some (.toolFailed k (if err = "" then "tool_failed" else err)))
  | .tool .timeout =>
    ({ fl with detached := fl.detached + 1 }, some (.toolFailed k "node_timeout"))
  | _ => (fl, some (.toolFailed k "no_tool_sandbox"))

/-- where the body goes on after a call that returned, `none` when an exception leaves it -/
def proceed (fl : Flags) (a : Answer) : Pc → Flags × Option Pc
  | .start => (fl, some (if fl.cancelled then .finish false else .entered))
  | .entered =>
    match n.type with
    | .humanApproval => (fl, some .askApproval)
    | .tool => (fl, some (.attempt 1 ""))
    | _ => (fl, some (.finish true))
  | .askApproval =>
    match a with
    | .pause false => (fl, some .approved)
    | _ => ({ fl with paused := true, cancelled := true }, some (.finish false))
  | .approved => ({ fl with completed := fl.completed + 1 }, some (.finish true))
  | .attempt k err =>
    (fl, some (if k ≤ maxAttempts n ∧ fl.cancelled = false then .opening k else .deadLetter k err))
  | .opening k => (fl, some (.callTool k))
  | .callTool k =>
    match toolArgs S.runId n with
    -- assignment by key on a value that is neither null nor an object
    | .error _ => (fl, none)
    | .ok _ => toolNext fl k a
  | .toolOk _ _ => ({ fl with completed := fl.completed + 1 }, some (.finish true))
  | .toolFailed k err => (fl, some (.attempt (k + 1) err))
  | .deadLetter _ _ =>
    ({ fl with failed := fl.failed + 1, anyFailure := true,
               cancelled := fl.cancelled || S.cfg.stopOnFirstFailure }, some (.finish false))
  | .finish advance => (fl, some (.finish advance))

/-- one step of the body; the exception of a call is caught by nobody -/
def runBody (fl : Flags) (pc : Pc) : Answer → Flags × Option Pc
  | .thrown => (fl, none)
  | a => proceed S n fl a pc

end

/-! ## the scheduler -/

/-- `by_id[id]`; every id that is submitted is the id of a node -/
def byId (dsl : WorkflowDsl) (id : String) : NodeSpec :=
  (dsl.nodes.reverse.find? (·.id = id)).getD {}

structure WorkflowExecutionResult where
  ok : Bool := false
  finalStatus : RunStatus := .failed
  errorMessage : String := ""
  completedNodes : Nat := 0
  failedNodes : Nat := 0
  deriving DecidableEq, Repr

inductive Phase where
  | begin
  | refusing
  | cancelling
  | creating
  | starting
  | dispatching
  | waiting
  | joining
  | clearing
  | closing
  | returned (out : WorkflowExecutionResult)
  | escaped
  deriving DecidableEq, Repr

structure Job where
  node : NodeSpec
  pc : Pc

/-- the state of one `execute`: `running` holds the jobs the workers have taken -/
structure Exec where
  phase : Phase := .begin
  inDegree : String → Int
  queue : List String := []
  outstanding : Int := 0
  running : List Job := []
  flags : Flags := {}

inductive Event where
  | main (a : Answer)
  | dispatch (order : List String)
  | take
  | node (i : Nat) (a : Answer)
  | straggler

def Event.answer : Event → Answer
  | main a => a
  | node _ a => a
  | _ => .quiet

section
variable (S : Setup)

def workers : Nat := max 1 S.cfg.workerCount

def autonomyDisabled : WorkflowExecutionResult :=
  { finalStatus := .cancelled, errorMessage := "autonomy_disabled" }

/-- what `execute` does before it creates the run -/
def preflight : Phase :=
  if S.activeRuns > S.cfg.maxConcurrentRuns then
    .returned { errorMessage := "backpressure_rejected" }
  else if S.autonomyEnabled = false then .refusing
  else if validateNoCycle S.dsl = false then .returned { errorMessage := "cycle detected" }
  else
    match validateNoSandboxBypass none S.dsl with
    | [] => .creating
    | id :: _ =>
      .returned { errorMessage := "sandbox_bypass attempted at node '" ++ id ++ "'" }

def result (fl : Flags) : WorkflowExecutionResult :=
  if fl.paused then
    { finalStatus := .waitingForApproval, completedNodes := fl.completed, failedNodes := fl.failed }
  else if fl.anyFailure then
    { finalStatus := .deadLetter, errorMessage := "node_failed", completedNodes := fl.completed,
      failedNodes := fl.failed }
  else
    { ok := true, finalStatus := .succeeded, completedNodes := fl.completed,
      failedNodes := fl.failed }

def runRecord : RunRecord :=
  { runId := S.runId, workflowId := S.dsl.id, dslHash := canonicalHash S.sha256 S.dsl,
    status := .running, dslJson := toJson S.dsl, contextJson := S.context }

section
variable (x : Exec)

def mainAsks : Option Call :=
  match x.phase with
  | .refusing => some .getRun
  | .cancelling => some (.transitionRunStatus .cancelled)
  | .creating => some (.createRun (runRecord S))
  | .starting => some (.transitionRunStatus .running)
  | .closing => some (.transitionRunStatus (result x.flags).finalStatus)
  | _ => none

/-- the next phase of the calling thread, `none` while it has to wait -/
def mainNext (st : Store) : Option Phase :=
  match x.phase with
  | .begin => some (preflight S)
  | .refusing => some (if st.run.isSome then .cancelling else .returned autonomyDisabled)
  | .cancelling => some (.returned autonomyDisabled)
  | .creating => some .starting
  | .starting => some .dispatching
  | .waiting => if x.outstanding = 0 then some .joining else none
  | .joining => if x.running.isEmpty && x.queue.isEmpty then some .clearing else none
  | .clearing => if x.flags.detached = 0 then some .closing else none
  | .closing => some (.returned (result x.flags))
  | _ => none

/-- the section under the lock at the end of a body -/
def complete (i : Nat) (node : NodeSpec) (advance : Bool) : Exec :=
  let rel := if advance && !x.flags.cancelled then
      Topo.release x.inDegree (succ S.dsl node.id)
    else (x.inDegree, [])
  { x with running := x.running.eraseIdx i, inDegree := rel.1, queue := x.queue ++ rel.2,
           outstanding := x.outstanding + rel.2.length - 1 }

def advanceBody (i : Nat) (job : Job) (a : Answer) : Exec :=
  match runBody S job.node x.flags job.pc a with
  | (fl, some pc) => { x with flags := fl, running := x.running.set i { job with pc } }
  | (fl, none) => { x with flags := fl, running := x.running.eraseIdx i }

def callOf : Event → Option Call
  | .main _ => mainAsks S x
  | .node i _ => (x.running[i]?).bind (fun job => asks S job.node job.pc)
  | _ => none

def perform (st : Store) : Event → Option Exec
  | .main .thrown => some { x with phase := .escaped }
  | .main _ => (mainNext S x st).map (fun phase => { x with phase })
  | .dispatch order =>
    -- the in-degrees are in a hash map: the roots come in any order
    if x.phase = .dispatching ∧ order.Perm (roots S.dsl) then
      some { x with phase := .waiting, queue := order, outstanding := order.length }
    else none
  | .take =>
    match x.queue with
    | [] => none
    | id :: rest =>
      if x.running.length < workers S then
        some { x with queue := rest, running := x.running ++ [⟨byId S.dsl id, .start⟩] }
      else none
  | .node i a =>
    (x.running[i]?).map (fun job =>
      match job.pc with
      | .finish advance => complete S x i job.node advance
      | _ => advanceBody S x i job a)
  | .straggler =>
    if x.flags.detached = 0 then none
    else some { x with flags := { x.flags with detached := x.flags.detached - 1 } }

end

def step (s : Exec × Store) (e : Event) : Option (Exec × Store) :=
  if e.answer.fits (callOf S s.1 e) then
    (perform S s.1 s.2 e).map (fun x => (x, s.2.after (callOf S s.1 e) e.answer))
  else none

def init (st : Store) : Exec × Store := ({ inDegree := inDegree S.dsl }, st)

end

/-! ## what the outside may answer -/

/-- a store, a callback and a sandbox, by the answers they may give; every call has one -/
structure Env where
  may : Call → Answer → Prop
  fits : ∀ c a, may c a → a.fits (some c)
  answers : ∀ c, ∃ a, may c a

/-- the environment may answer the call of this event in this way -/
def Env.Allows (env : Env) (S : Setup) (x : Exec) (e : Event) : Prop :=
  ∀ c, callOf S x e = some c → env.may c e.answer

def Step (env : Env) (S : Setup) (s t : Exec × Store) : Prop :=
  ∃ e, env.Allows S s.1 e ∧ step S s e = some t

end AegisGate.Workflow
