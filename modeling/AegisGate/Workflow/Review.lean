import AegisGate.Workflow.HumanApproval
import AegisGate.Workflow.Session

/-!
# A run and its reviewers

One `execute` of a workflow, and the `approve` and `apply` calls of reviewers on the proposals of its
approval nodes.  The engine takes its steps one at a time; the callback of an approval node enqueues a
proposal; an `apply` of such a proposal is inside `WorkflowApprovalApplier` until the `resume` under it
has returned, and everything else can move meanwhile.

* `Desk`  what engine, handler, approval workflow and applier are wired with;
* `engineStep`  a step of `execute` or `resume`, with what the callback does;
* `reviewStep`  a step of a reviewer's call, into the engine and out of it again;
* `systemStep`  a new call, or a step of one of those under way;
* `EngineMoves`, `Works`  what such steps can do.

The steps of the applier, with nothing in between, are `workflowApplier` (`workflowApplier_apply`).
Audit rows are left out but for the exceptions they may throw.
-/

namespace AegisGate.Workflow

open Autonomy Json Option Workflow

/-! ## the wiring -/

structure Desk (τ : Type) where
  setup : Setup
  deps : WorkflowDeps τ
  /-- the filter of the handler -/
  piiFilter : Option (String → String) := none
  /-- `AutonomyApprovalWorkflow::checkEnabled` -/
  enabled : Bool := true
  /-- what the applier reads of the environment -/
  env : Autonomy.Env := none

/-- what the calls share; `asked` has the approval nodes whose callback was called, with the ids of
their proposals, empty when `propose` refused -/
structure World (τ : Type) where
  shared : Shared τ
  store : Store := {}
  asked : List (String × String) := []

section
variable {τ : Type} (D : Desk τ)

def Desk.dslHash : String := canonicalHash D.setup.sha256 D.setup.dsl

/-- the approval workflow over a queue; its appliers have no part in `propose` -/
def Desk.workflow (q : ApprovalQueue) : Workflow Unit where
  queue := some q
  audit := if D.deps.hasAudit then some [] else none
  appliers _ := none
  enabledOverride := some D.enabled
  targets := ()

/-- `HumanApprovalNodeHandler::enqueue`, from the callback of the engine -/
def Desk.enqueue (amb : Ambient) (q : ApprovalQueue) (node : NodeSpec) (context : Json) :
    ApprovalQueue × Except TypeError String :=
  let p := approvalProposal D.piiFilter D.deps.digest.sha256 D.setup.runId D.setup.dsl.id D.dslHash
    node context amb.nowMs
  let r := (D.workflow q).propose D.deps.digest D.env amb p
  (r.1.queue.getD q, r.2)

/-- the callback pauses the run, whatever `enqueue` returns -/
def callbackAnswer : Except TypeError String → Answer
  | .ok _ => .pause true
  | .error _ => .thrown

/-! ## the engine -/

/-- the approval node whose callback is called, and the context of the run -/
def Resuming.asking : Resuming → CallEvent → Option (NodeSpec × Json)
  | .executing S x, .exec e =>
    match callOf S x e with
    | some (.approval node) => some (node, S.context)
    | _ => none
  | _, _ => none

def CallEvent.answer : CallEvent → Answer
  | .returned => .returned
  | .thrown => .thrown
  | .exec e => e.answer

variable (w : World τ)

def engineStep (q : Resuming) (e : CallEvent) (amb : Ambient) : Option (World τ × Resuming) :=
  match q.asking e with
  | none => (callStep D.setup (q, w.store) e).map (fun t => ({ w with store := t.2 }, t.1))
  | some (node, context) =>
    match D.enqueue amb w.shared.queue node context with
    | (queue, id) =>
      if e.answer = callbackAnswer id then
        (callStep D.setup (q, w.store) e).map (fun t =>
          ({ shared := { w.shared with queue }, store := t.2
             asked := (node.id, id.toOption.getD "") :: w.asked }, t.1))
      else none

/-! ## a reviewer's call -/

inductive Request where
  | approve (nowMs : Int) (id reviewerUserId : String)
  | apply (id : String)

def Request.prog : Request → Prog (Except TypeError Bool)
  | .approve nowMs id reviewer => approveProg D.deps D.enabled nowMs id reviewer
  | .apply id => applyProg D.deps D.enabled id

/-- the calls made so far, what is left to do, and where the `resume` of an `apply` is -/
structure Review where
  request : Request
  past : List ((c : QueueCall) × c.Answer) := []
  rest : Prog (Except TypeError Bool)
  place : Option Resuming := none

def Review.answered (r : Review) (c : QueueCall) (k : c.Answer → Prog (Except TypeError Bool))
    (a : c.Answer) : Review :=
  { r with past := ⟨c, a⟩ :: r.past, rest := k a, place := none }

def Desk.runHash (st : Store) (runId : String) : Option String :=
  if runId = D.setup.runId then st.run.map (·.dslHash) else none

/-- `WorkflowApprovalApplier::apply` up to its `resume`; `none` when it gets there -/
def Desk.applierCheck (st : Store) (p : ApprovalProposal) :
    Option (Except TypeError ApplyResult) :=
  if !Autonomy.isAutonomyEnabled D.env then some (.ok Autonomy.autonomyDisabled)
  else
    match RunPayload.extract p with
    | .error e => some (.error e)
    | .ok (.error message) => some (.ok (makeFailSchemaInvalid message))
    | .ok (.ok v) =>
      match D.runHash st v.runId with
      | none => some (.ok (.fail "run_not_found" v.runId))
      | some hash =>
        if v.dslHash ≠ "" ∧ v.dslHash ≠ hash then
          some (.ok (.fail "dsl_hash_mismatch" "proposal payload diverged from stored DSL"))
        else none

/-- what the applier says of the `resume` that returned -/
def applierResult (p : ApprovalProposal) (out : WorkflowExecutionResult) :
    Except TypeError ApplyResult :=
  match RunPayload.extract p with
  | .error e => .error e
  | .ok (.error message) => .ok (makeFailSchemaInvalid message)
  | .ok (.ok v) => .ok (resumeResult v out)

def applierStep (r : Review) (p : ApprovalProposal)
    (k : Except TypeError ApplyResult → Prog (Except TypeError Bool)) (e : CallEvent)
    (amb : Ambient) : Option (World τ × Review) :=
  match r.place with
  | none =>
    let w := { w with shared := { w.shared with applied := p.id :: w.shared.applied } }
    match D.applierCheck w.store p with
    | some a => some (w, r.answered (.apply p) k a)
    | none => some (w, { r with place := some .getting })
  | some q =>
    match q.out with
    | some out => some (w, r.answered (.apply p) k (applierResult p out))
    | none => (engineStep D w q e amb).map (fun t => (t.1, { r with place := some t.2 }))

def reviewStep (r : Review) (e : CallEvent) (amb : Ambient) : Option (World τ × Review) :=
  match r.rest with
  | .ret _ => none
  | .call (.apply p) k =>
    if p.source = .workflow then applierStep D w r p k e amb
    else
      let s := exec D.deps (.apply p) w.shared
      some ({ w with shared := s.2 }, r.answered (.apply p) k s.1)
  | .call c k =>
    let s := exec D.deps c w.shared
    some ({ w with shared := s.2 }, r.answered c k s.1)

/-! ## the system -/

inductive Task where
  | execute (q : Resuming)
  | review (r : Review)

def taskStep (e : CallEvent) (amb : Ambient) : Task → Option (World τ × Task)
  | .execute q => (engineStep D w q e amb).map (fun t => (t.1, .execute t.2))
  | .review r => (reviewStep D w r e amb).map (fun t => (t.1, .review t.2))

structure System (τ : Type) where
  world : World τ
  tasks : List Task

inductive SystemEvent where
  | begin (request : Request)
  | step (i : Nat) (e : CallEvent) (amb : Ambient)

def Request.task (request : Request) : Task := .review { request, rest := request.prog D }

def systemStep (s : System τ) : SystemEvent → Option (System τ)
  | .begin request => some { s with tasks := request.task D :: s.tasks }
  | .step i e amb =>
    (s.tasks[i]?).bind (fun t => (taskStep D s.world e amb t).map (fun u =>
      { world := u.1, tasks := s.tasks.set i u.2 }))

/-- the `execute` is called; other proposals may be in the queue already -/
def opening (shared : Shared τ) : System τ where
  world := { shared }
  tasks := [.execute (entering D.setup)]

end

def Task.place : Task → Option Resuming
  | .execute q => some q
  | .review r => r.place

def Resuming.ended : Resuming → Bool
  | .refused _ | .escaped => true
  | .executing _ x => x.phase.ended
  | _ => false

def Task.ended : Task → Bool
  | .execute q => q.ended
  | .review r =>
    match r.rest, r.place with
    | .ret _, _ => true
    | _, some .escaped => true
    | _, some (.executing _ x) => x.phase = .escaped
    | _, _ => false

def Resuming.busy : Resuming → Bool
  | .getting | .refused _ | .escaped => false
  | .executing _ x => !x.phase.ended
  | _ => true

def Task.busy (t : Task) : Bool := (t.place.map Resuming.busy).getD false

section
variable {τ : Type} (D : Desk τ) (wr : Wiring Store) (p : ApprovalProposal) (t : Targets Store)

/-- an applier on the same environment and store: the check, and then the `resume` of this run -/
theorem workflowApplier_apply : (Wiring.applier
    { wr with env := D.env, hasEngine := true, runHash := D.runHash } .workflow).apply p false t =
      match D.applierCheck t.runs p with
      | some a => (a, t)
      | none => ((wr.resume D.setup.runId t.runs).1.bind (applierResult p),
          { t with runs := (wr.resume D.setup.runId t.runs).2 }) := by
  show (if Autonomy.isAutonomyEnabled D.env then (Autonomy.workflowApplier _).apply p false t
    else _) = _
  unfold Desk.applierCheck Autonomy.workflowApplier Autonomy.withPayload applierResult
  cases Autonomy.isAutonomyEnabled D.env with
  | false => rfl
  | true =>
    simp only [if_true, Bool.not_true, Bool.false_eq_true, if_false]
    cases RunPayload.extract p with
    | error e => rfl
    | ok v =>
      cases v with
      | error message => rfl
      | ok v =>
        simp only [Desk.runHash]
        by_cases hrun : v.runId = D.setup.runId
        · rw [if_pos hrun, hrun]
          cases t.runs.run with
          | none => rfl
          | some r =>
            simp only [map_some]
            split
            · rfl
            · cases (wr.resume D.setup.runId t.runs).1 <;> rfl
        · rw [if_neg hrun]

end

/-! ## what the callback does to the queue -/

def Unused (q : ApprovalQueue) (id : String) : Prop :=
  id ≠ "" ∧ q.get id = none ∧ q.store.bind (AList.lookup id) = none

/-- the proposal this step enqueues, if it does, gets an id of its own -/
abbrev World.Fresh {τ : Type} (w : World τ) (q : Resuming) (e : CallEvent) (amb : Ambient) : Prop :=
  (q.asking e).isSome → Unused w.shared.queue amb.ulid

lemma insert_cases (dg : Digest) (q : ApprovalQueue) (p : ApprovalProposal) :
    q.insert dg p = (q, "") ∨
      p.id ≠ "" ∧ ∃ rows, q.insert dg p = (⟨rows, q.cache.insert p.id p⟩, p.id) := by
  unfold ApprovalQueue.insert
  split
  · exact .inl rfl
  · next hid =>
    cases q.store with
    | none =>
      simp only
      split
      · exact .inl rfl
      · exact .inr ⟨hid, none, rfl⟩
    | some rows =>
      simp only
      cases insertApprovalProposal rows (toRecord dg p) with
      | none => exact .inl rfl
      | some rows' => exact .inr ⟨hid, some rows', rfl⟩

section
variable {τ : Type} (D : Desk τ) (amb : Ambient) (q : ApprovalQueue) (node : NodeSpec)
  (context : Json)

def Desk.proposal : ApprovalProposal :=
  sealProposal D.deps.digest (fillProposal amb
    (approvalProposal D.piiFilter D.deps.digest.sha256 D.setup.runId D.setup.dsl.id D.dslHash node
      context amb.nowMs))

@[simp] lemma proposal_payload : (D.proposal amb node context).payload =
    scrub D.piiFilter (approvalPayload D.setup.runId D.setup.dsl.id D.dslHash node context) := rfl

lemma auditTransition_ok {τ β : Type} {dg : Digest} {w : Workflow τ}
    {p : ApprovalProposal} {action : String} {ret : β} {j : Json} (h : auditDetail p = .ok j) :
    (auditTransition dg w p action ret).2 = .ok ret := by
  unfold auditTransition
  split
  · rfl
  · rw [h]

lemma auditDetail_proposal : ∃ j, auditDetail (D.proposal amb node context) = .ok j := by
  have htrace : ∃ l, (D.proposal amb node context).decisionTrace = .obj l := by
    show ∃ l, maskDecisionTrace D.deps.digest (scrub D.piiFilter _) = .obj l
    rw [scrub_approvalTrace]
    exact ⟨_, rfl⟩
  obtain ⟨l, hl⟩ := htrace
  unfold auditDetail
  rw [hl]
  exact ⟨_, rfl⟩

def Desk.trace : Json :=
  scrub D.piiFilter (approvalTrace D.deps.digest.sha256 D.setup.runId D.dslHash node amb.nowMs)

lemma enqueue_eq : D.enqueue amb q node context =
    if D.enabled ∧ (Autonomy.validateDecisionTrace (D.trace amb node)).ok then
      ((q.insert D.deps.digest (D.proposal amb node context)).1,
        .ok (q.insert D.deps.digest (D.proposal amb node context)).2) else (q, .ok "") := by
  unfold Desk.enqueue Autonomy.Workflow.propose
  have hen : (D.workflow q).checkEnabled D.env = D.enabled := rfl
  have hqueue : (D.workflow q).queue = some q := rfl
  have htrace : (approvalProposal D.piiFilter D.deps.digest.sha256 D.setup.runId D.setup.dsl.id
      D.dslHash node context amb.nowMs).decisionTrace = D.trace amb node := rfl
  have hp : Autonomy.Workflow.sealProposal D.deps.digest (Autonomy.Workflow.fillProposal amb
      (approvalProposal D.piiFilter D.deps.digest.sha256 D.setup.runId D.setup.dsl.id D.dslHash node
        context amb.nowMs)) = D.proposal amb node context := rfl
  simp only [hen, hqueue, htrace, hp]
  cases D.enabled with
  | false => simp [hqueue]
  | true =>
    cases (Autonomy.validateDecisionTrace (D.trace amb node)).ok with
    | false => simp [hqueue]
    | true =>
      simp only [Bool.not_true, Bool.false_eq_true, if_false, and_self, if_true]
      obtain ⟨j, hj⟩ := auditDetail_proposal D amb node context
      rcases insert_cases D.deps.digest q (D.proposal amb node context) with hno | ⟨hid, rows, hyes⟩
      · simp only [hno, if_true, hqueue, getD_some]
      · simp only [hyes, if_neg hid, Autonomy.Workflow.auditTransition_queue, auditTransition_ok hj,
          getD_some]

/-- `propose` refuses, or stores the proposal under the id it has drawn -/
lemma enqueue_cases :
    D.enqueue amb q node context = (q, .ok "") ∨
      amb.ulid ≠ "" ∧ ∃ rows, D.enqueue amb q node context =
        (⟨rows, q.cache.insert amb.ulid (D.proposal amb node context)⟩, .ok amb.ulid) := by
  rw [enqueue_eq]
  split
  · rcases insert_cases D.deps.digest q (D.proposal amb node context) with hno | ⟨hid, rows, hyes⟩
    · rw [hno]
      exact .inl rfl
    · rw [hyes]
      exact .inr ⟨hid, rows, rfl⟩
  · exact .inl rfl

lemma enqueue_accepted (hon : D.enabled) (htrace : (validateDecisionTrace (D.trace amb node)).ok)
    (hfresh : Unused q amb.ulid) : (D.enqueue amb q node context).2 = .ok amb.ulid ∧
      (D.enqueue amb q node context).1.get amb.ulid = some (D.proposal amb node context) := by
  rw [enqueue_eq, if_pos ⟨hon, htrace⟩]
  obtain ⟨hid, hcache, hrows⟩ := hfresh
  obtain ⟨hret, hget⟩ := q.insert_unused D.deps.digest (D.proposal amb node context) hid hcache hrows
  exact ⟨congrArg _ hret, hget⟩

lemma get_enqueue_ne {id : String} (h : id ≠ amb.ulid) :
    (D.enqueue amb q node context).1.get id = q.get id := by
  rcases enqueue_cases D amb q node context with hno | ⟨-, rows, hyes⟩
  · rw [hno]
  · rw [hyes]
    exact AList.lookup_insert_ne h

end

/-! ## what a step can do -/

lemma asks_askApproval {S : Setup} {job : Job} (hpc : job.pc = .askApproval) (hcb : S.hasCallback) :
    asks S job.node job.pc = some (.approval job.node) := by
  rw [hpc]
  simp only [asks, hcb, if_true]

lemma runBody_pause {job : Job} (hpc : job.pc = .askApproval) (S : Setup) (fl : Flags) :
    runBody S job.node fl job.pc (.pause true) =
      ({ fl with paused := true, cancelled := true }, some (.finish false)) := by
  rw [hpc]
  rfl

lemma asking_askApproval {S : Setup} {x : Exec} {l r : List Job} {job : Job}
    (hr : x.running = l ++ job :: r) (hpc : job.pc = .askApproval) (hcb : S.hasCallback)
    (a : Answer) :
    (Resuming.executing S x).asking (.exec (.node l.length a)) = some (job.node, S.context) := by
  have hcall : callOf S x (.node l.length a) = some (.approval job.node) := by
    rw [callOf_node hr, asks_askApproval hpc hcb]
  simp only [Resuming.asking, hcall]

section
variable {τ : Type} (D : Desk τ) (w : World τ)

def World.enqueued (amb : Ambient) (node : NodeSpec) (context : Json) : World τ where
  shared := { w.shared with queue := (D.enqueue amb w.shared.queue node context).1 }
  store := w.store
  asked := (node.id, (D.enqueue amb w.shared.queue node context).2.toOption.getD "") :: w.asked

/-- a step of the engine: a call to the store or a tool, or the callback of an approval node -/
inductive EngineMoves : Resuming → CallEvent → Ambient → World τ → Resuming → Prop
  | plain {q q' e amb st} (hask : q.asking e = none)
      (h : callStep D.setup (q, w.store) e = some (q', st)) :
      EngineMoves q e amb { w with store := st } q'
  | asks {S x x' l r job amb}
      (hr : x.running = l ++ job :: r) (hpc : job.pc = .askApproval) (hcb : S.hasCallback)
      (hstep : step S (x, w.store) (.node l.length (.pause true)) = some (x', w.store))
      (hx : x' = { x with flags := { x.flags with paused := true, cancelled := true }
                          running := l ++ { job with pc := .finish false } :: r }) :
      EngineMoves (.executing S x) (.exec (.node l.length (.pause true))) amb
        (w.enqueued D amb job.node S.context) (.executing S x')

def World.calls (p : ApprovalProposal) : World τ :=
  { w with shared := { w.shared with applied := p.id :: w.shared.applied } }

/-- a step of a call: of the engine under it, of the queue, or into the applier and out of it -/
inductive Works : CallEvent → Ambient → Task → World τ → Task → Prop
  | execute {q q' e amb w'}
      (h : EngineMoves D w q e amb w' q') : Works e amb (.execute q) w' (.execute q')
  | queue {r c k e amb} (hrest : r.rest = .call c k)
      (hc : ∀ p, c = .apply p → p.source ≠ .workflow) :
      Works e amb (.review r) { w with shared := (exec D.deps c w.shared).2 }
        (.review (r.answered c k (exec D.deps c w.shared).1))
  | refused {r p k e amb a} (hrest : r.rest = .call (.apply p) k)
      (hs : p.source = .workflow) (hplace : r.place = none)
      (hcheck : D.applierCheck w.store p = some a) :
      Works e amb (.review r) (w.calls p) (.review (r.answered (.apply p) k a))
  | entered {r p k e amb} (hrest : r.rest = .call (.apply p) k) (hs : p.source = .workflow)
      (hplace : r.place = none) (hcheck : D.applierCheck w.store p = none) :
      Works e amb (.review r) (w.calls p) (.review { r with place := some .getting })
  | engine {r p k e amb q q' w'} (hrest : r.rest = .call (.apply p) k)
      (hs : p.source = .workflow) (hplace : r.place = some q) (hout : q.out = none)
      (h : EngineMoves D w q e amb w' q') :
      Works e amb (.review r) w' (.review { r with place := some q' })
  | returned {r p k e amb q out}
      (hrest : r.rest = .call (.apply p) k) (hs : p.source = .workflow) (hplace : r.place = some q)
      (hout : q.out = some out) :
      Works e amb (.review r) w (.review (r.answered (.apply p) k (applierResult p out)))

variable {D w} {S : Setup} {e : CallEvent} {node : NodeSpec} {amb : Ambient} {q : Resuming}
  {w' : World τ} {x : Exec}

lemma asks_approval {n : NodeSpec} {pc : Pc} (h : asks S n pc = some (.approval node)) :
    pc = .askApproval ∧ S.hasCallback ∧ node = n := by
  rcases asks_cases h with ⟨_, hc, -⟩ | ⟨hc, hpc, hcb⟩ | ⟨_, _, hc, -⟩ <;> cases hc
  exact ⟨hpc, hcb, rfl⟩

lemma callOf_approval {e : Event} (h : callOf S x e = some (.approval node)) :
    ∃ l r job a, e = .node l.length a ∧ x.running = l ++ job :: r ∧
      asks S job.node job.pc = some (.approval node) := by
  cases e with
  | node i a =>
    obtain ⟨job, hjob, hask⟩ := bind_eq_some_iff.1 h
    obtain ⟨l, r, hr, rfl⟩ := Position.split_of_getElem? hjob
    exact ⟨l, r, job, a, rfl, hr, hask⟩
  | main a =>
    simp only [callOf, mainAsks] at h
    split at h <;> cases h
  | _ => cases h

lemma asking_eq_some {context : Json} (h : q.asking e = some (node, context)) :
    ∃ S x l r job a, q = .executing S x ∧ e = .exec (.node l.length a) ∧
      x.running = l ++ job :: r ∧ job.pc = .askApproval ∧ S.hasCallback ∧
      node = job.node ∧ context = S.context := by
  cases q with
  | executing S x =>
    cases e with
    | exec e =>
      simp only [Resuming.asking] at h
      split at h
      · next n hcall =>
        cases h
        obtain ⟨l, r, job, a, rfl, hr, hask⟩ := callOf_approval hcall
        obtain ⟨hpc, hcb, hnode⟩ := asks_approval hask
        exact ⟨S, x, l, r, job, a, rfl, rfl, hr, hpc, hcb, hnode, rfl⟩
      · cases h
    | _ => cases h
  | _ => cases h

lemma step_asks {st : Store} {l r : List Job} {job : Job} (hr : x.running = l ++ job :: r)
    (hpc : job.pc = .askApproval) (hcb : S.hasCallback) :
    step S (x, st) (.node l.length (.pause true)) =
      some ({ x with flags := { x.flags with paused := true, cancelled := true }
                     running := l ++ { job with pc := .finish false } :: r }, st) := by
  have hget : x.running[l.length]? = some job := by
    rw [hr]
    simp
  have hbody : perform S x st (.node l.length (.pause true)) =
      some (advanceBody S x l.length job (.pause true)) := by
    simp only [perform, hget, map_some, hpc]
  simp only [step, callOf_node hr, asks_askApproval hpc hcb, Event.answer, Answer.fits, if_true, hbody,
    map_some, Store.after, advanceBody, runBody_pause hpc, hr, Position.set_split]

lemma engineMoves_of_step {q' : Resuming} (h : engineStep D w q e amb = some (w', q')) :
    EngineMoves D w q e amb w' q' := by
  unfold engineStep at h
  split at h
  · next hask =>
    obtain ⟨⟨q1, st⟩, hstep, heq⟩ := map_eq_some_iff.1 h
    cases heq
    exact .plain hask hstep
  · next node context hask =>
    obtain ⟨S, x, l, r, job, a, rfl, rfl, hr, hpc, hcb, rfl, rfl⟩ := asking_eq_some hask
    obtain ⟨id, hid⟩ : ∃ id, (D.enqueue amb w.shared.queue job.node S.context).2 = .ok id := by
      rcases enqueue_cases D amb w.shared.queue job.node S.context with hno | ⟨-, rows, hyes⟩
      · exact ⟨"", by rw [hno]⟩
      · exact ⟨amb.ulid, by rw [hyes]⟩
    simp only [hid] at h
    split at h
    · next ha =>
      obtain rfl : a = .pause true := ha
      obtain ⟨⟨q1, st⟩, hstep, heq⟩ := map_eq_some_iff.1 h
      obtain ⟨⟨x', st'⟩, hx, heq'⟩ := map_eq_some_iff.1 hstep
      cases heq'
      cases heq
      have hx' := hx
      rw [step_asks hr hpc hcb] at hx'
      cases hx'
      have hmoves : EngineMoves D w _ _ amb _ _ := .asks hr hpc hcb hx rfl
      rw [World.enqueued, hid] at hmoves
      exact hmoves
    · cases h

lemma works_of_step {t t' : Task} (h : taskStep D w e amb t = some (w', t')) :
    Works D w e amb t w' t' := by
  cases t with
  | execute q =>
    obtain ⟨⟨w1, q1⟩, hstep, heq⟩ := map_eq_some_iff.1 h
    cases heq
    exact .execute (engineMoves_of_step hstep)
  | review r =>
    obtain ⟨⟨w1, r1⟩, hstep, heq⟩ := map_eq_some_iff.1 h
    cases heq
    unfold reviewStep at hstep
    split at hstep
    · cases hstep
    · next p k hrest =>
      split at hstep
      · next hs =>
        unfold applierStep at hstep
        split at hstep
        · next hplace =>
          simp only at hstep
          split at hstep
          · next a hcheck =>
            cases hstep
            exact .refused hrest hs hplace hcheck
          · next hcheck =>
            cases hstep
            exact .entered hrest hs hplace hcheck
        · next q hplace =>
          split at hstep
          · next out hout =>
            cases hstep
            exact .returned hrest hs hplace hout
          · next hout =>
            obtain ⟨⟨w2, q2⟩, hengine, heq⟩ := map_eq_some_iff.1 hstep
            cases heq
            exact .engine hrest hs hplace hout (engineMoves_of_step hengine)
      · next hs =>
        cases hstep
        refine .queue hrest fun p' hp => ?_
        cases hp
        exact hs
    · next c k hne hrest =>
      cases hstep
      refine .queue hrest fun p hp => ?_
      subst hp
      exact absurd HEq.rfl (hne p k rfl)

end

end AegisGate.Workflow
