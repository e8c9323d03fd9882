import AegisGate.Agent.Orchestrator
import AegisGate.Lib.Run
import AegisGate.Workflow.Scheduler
import Mathlib.Algebra.GroupWithZero.Nat

/-!
# Whether `execute` returns

The calling thread waits until `outstanding` is zero.  The counter goes down in the last section of
a node's body, so a body that an exception leaves keeps it up for ever: the worker swallows the
exception, and the caller waits for a node nobody works on.

* `measure`  every run of the machine is finite, whatever the outside answers;
* `progress`  a run that lost no job goes on until the caller has returned;
* `CanThrow`  the nodes whose body an exception can leave, given who may throw: arguments that are
  neither null nor an object are enough;
* `Env.Behaves`  the tools are run by `ToolSandbox`, which catches a `std::exception` of the executor
  and checks the arguments outside of its `try`;
* `smooth`  the environment that lets every node succeed, except that who may throw does.
-/

namespace AegisGate.Workflow

open List Phase Run Answer Event

/-! ## every run is finite -/

/-- the steps a body can still make; an attempt that times out leaves one to its straggler -/
def rank (n : NodeSpec) : Pc → Nat
  | .start => 5 * maxAttempts n + 5
  | .entered => 5 * maxAttempts n + 4
  | .askApproval => 3
  | .approved => 2
  | .attempt k _ => 5 * (maxAttempts n + 1 - k) + 3
  | .opening k => 5 * (maxAttempts n - k) + 7
  | .callTool k => 5 * (maxAttempts n - k) + 6
  | .toolOk _ _ => 2
  | .toolFailed k _ => 5 * (maxAttempts n - k) + 4
  | .deadLetter _ _ => 2
  | .finish _ => 1

def cost (S : Setup) (id : String) : Nat := rank (byId S.dsl id) .start + 1

def Phase.rank (S : Setup) : Phase → Nat
  | .begin => ((roots S.dsl).map (cost S)).sum + 9
  | .refusing => 2
  | .cancelling => 1
  | .creating => ((roots S.dsl).map (cost S)).sum + 8
  | .starting => ((roots S.dsl).map (cost S)).sum + 7
  | .dispatching => ((roots S.dsl).map (cost S)).sum + 6
  | .waiting => 5
  | .joining => 4
  | .clearing => 3
  | .closing => 2
  | .returned _ => 0
  | .escaped => 0

/-- the steps left: of the jobs, the queue, what is still to be released, the stragglers and the
caller -/
def measure (S : Setup) (x : Exec) : Nat :=
  (x.running.map (fun j => rank j.node j.pc)).sum + (x.queue.map (cost S)).sum
    + (((ids S.dsl).dedup.filter (0 < x.inDegree ·)).map (cost S)).sum
    + x.flags.detached + x.phase.rank S

section
variable {S : Setup} {n : NodeSpec} {fl fl' : Flags} {pc pc' : Pc} {a : Answer}

lemma rank_pos (n : NodeSpec) (pc : Pc) : 0 < rank n pc := by
  cases pc <;> simp [rank]

lemma one_le_maxAttempts (n : NodeSpec) : 1 ≤ maxAttempts n := by
  unfold maxAttempts
  omega

lemma proceed_rank (hpc : ∀ advance, pc ≠ .finish advance)
    (h : proceed S n fl a pc = (fl', some pc')) :
    rank n pc' + fl'.detached < rank n pc + fl.detached := by
  cases pc with
  | start =>
    cases h
    split <;> simp only [rank] <;> omega
  | entered | askApproval =>
    simp only [proceed] at h
    split at h <;> cases h <;> simp only [rank] <;> omega
  | attempt k err =>
    cases h
    split
    · next hk =>
      simp only [rank]
      omega
    · simp only [rank]
      omega
  | callTool k =>
    simp only [proceed] at h
    split at h
    · cases h
    · unfold toolNext at h
      split at h <;> cases h <;> simp only [rank] <;> omega
  | finish advance => exact absurd rfl (hpc advance)
  | _ =>
    cases h
    simp only [rank]
    omega

lemma runBody_none (h : runBody S n fl pc a = (fl', none)) :
    fl' = fl ∧ (a = .thrown ∨ (∃ k, pc = .callTool k) ∧ ∃ e, toolArgs S.runId n = .error e) := by
  by_cases ha : a = .thrown
  · subst ha
    cases h
    exact ⟨rfl, .inl rfl⟩
  rw [runBody_of_ne ha] at h
  cases pc with
  | callTool k =>
    simp only [proceed] at h
    split at h
    · next e he =>
      cases h
      exact ⟨rfl, .inr ⟨⟨k, rfl⟩, e, he⟩⟩
    · unfold toolNext at h
      split at h <;> cases h
  | entered | askApproval =>
    simp only [proceed] at h
    split at h <;> cases h
  | _ => cases h

lemma mainNext_rank {st : Store} {x : Exec} {phase : Phase}
    (h : mainNext S x st = some phase) : phase.rank S < x.phase.rank S := by
  unfold mainNext at h
  split at h
  case h_1 hp =>
    cases h
    rw [hp]
    unfold preflight
    split
    · simp [Phase.rank]
    split
    · simp only [Phase.rank]
      omega
    split
    · simp [Phase.rank]
    split <;> simp [Phase.rank]
  case h_2 hp =>
    cases h
    rw [hp]
    split <;> simp [Phase.rank]
  case h_6 hp =>
    rw [hp]
    split at h <;> cases h
    simp [Phase.rank]
  case h_7 hp =>
    rw [hp]
    split at h <;> cases h
    simp [Phase.rank]
  case h_8 hp =>
    rw [hp]
    split at h <;> cases h
    simp [Phase.rank]
  case h_10 => cases h
  all_goals
    next hp =>
    cases h
    rw [hp]
    simp [Phase.rank]

lemma mainAsks_rank {x : Exec} {c : Call} (h : mainAsks S x = some c) :
    escaped.rank S < x.phase.rank S := by
  unfold mainAsks at h
  split at h <;> first | cases h; done | skip
  all_goals
    next hp =>
    rw [hp]
    simp [Phase.rank]

lemma Moves.measure_lt {st : Store} {x x' : Exec} {e : Event} (h : Moves S st x e x') :
    measure S x' < measure S x := by
  cases h with
  | main ha h =>
    have hlt := mainNext_rank h
    simp only [measure]
    omega
  | escape h =>
    have hlt := mainAsks_rank h
    simp only [measure]
    omega
  | dispatch hp ho =>
    have hsum := (ho.map (cost S)).sum_nat
    simp only [measure, hp, Phase.rank, hsum]
    omega
  | take hq hw =>
    simp only [measure, hq, map_append, sum_append, map_cons, map_nil, sum_cons, sum_nil, cost]
    omega
  | @release l r job a hr hpc hc =>
    have hperm := Topo.release_perm (nodup_dedup (ids S.dsl)) x.inDegree
      (mem_ids_of_mem_succ S.dsl job.node.id)
    have hsum := (hperm.map (cost S)).sum_nat
    have hpos := rank_pos job.node job.pc
    simp only [measure, hr, hsum, map_append, sum_append, map_cons, sum_cons]
    omega
  | @stall l r job a advance hr hpc hc =>
    have hpos := rank_pos job.node job.pc
    simp only [measure, hr, map_append, sum_append, map_cons, sum_cons]
    omega
  | @body l r job a fl pc hr hpc ha hb =>
    have hlt := proceed_rank hpc (proceed_of_runBody hb)
    simp only [measure, hr, map_append, sum_append, map_cons, sum_cons]
    omega
  | @gone l r job a fl hr hpc ha hb =>
    have hpos := rank_pos job.node job.pc
    obtain ⟨rfl, -⟩ := runBody_none hb
    simp only [measure, hr, map_append, sum_append, map_cons, sum_cons]
    omega
  | straggler hd =>
    simp only [measure]
    omega

end

/-- whatever the outside answers, every run is finite -/
lemma halts (env : Env) (S : Setup) (s : Exec × Store) : Halts (Step env S) s := by
  refine Halts.of_measure (I := fun _ => True) (measure S ·.1) (fun _ _ _ _ => trivial)
    ?_ s trivial
  rintro ⟨x, st⟩ ⟨x', st'⟩ - ⟨e, -, h⟩
  exact (moves_of_step h).1.measure_lt

/-! ## a run that lost no job goes on -/

/-- the caller has its result, or the exception of a call to the store -/
def Phase.ended : Phase → Bool
  | .returned _ | .escaped => true
  | _ => false

section
variable (env : Env) {S : Setup} {st : Store} {x : Exec}

lemma exists_answer (c : Option Call) :
    ∃ a : Answer, a.fits c ∧ ∀ c', c = some c' → env.may c' a := by
  cases c with
  | none => exact ⟨.quiet, rfl, nofun⟩
  | some c =>
    obtain ⟨a, ha⟩ := env.answers c
    refine ⟨a, env.fits c a ha, fun c' h => ?_⟩
    cases h
    exact ha

lemma progress_job {l r : List Job} {job : Job} (hr : x.running = l ++ job :: r) :
    ∃ t, Step env S (x, st) t := by
  obtain ⟨a, hfit, hmay⟩ := exists_answer env (asks S job.node job.pc)
  have hget : x.running[l.length]? = some job := by
    rw [hr]
    simp
  have hcall : callOf S x (.node l.length a) = asks S job.node job.pc := callOf_node hr
  have hsome : (step S (x, st) (.node l.length a)).isSome := by
    simp only [step, hcall, answer, hfit, perform, hget]
    rfl
  obtain ⟨t, ht⟩ := Option.isSome_iff_exists.1 hsome
  exact ⟨t, .node l.length a, fun c hc => hmay c (hcall ▸ hc), ht⟩

lemma progress_main (h : (mainNext S x st).isSome) : ∃ t, Step env S (x, st) t := by
  obtain ⟨a, hfit, hmay⟩ := exists_answer env (mainAsks S x)
  obtain ⟨phase, hphase⟩ := Option.isSome_iff_exists.1 h
  have hsome : (step S (x, st) (.main a)).isSome := by
    have hcall : callOf S x (.main a) = mainAsks S x := rfl
    simp only [step, hcall, answer, hfit]
    cases a <;> simp [perform, hphase]
  obtain ⟨t, ht⟩ := Option.isSome_iff_exists.1 hsome
  exact ⟨t, .main a, hmay, ht⟩

lemma progress_quiet (e : Event) (hc : callOf S x e = none)
    (h : (step S (x, st) e).isSome) : ∃ t, Step env S (x, st) t := by
  obtain ⟨t, ht⟩ := Option.isSome_iff_exists.1 h
  refine ⟨t, e, fun c hc' => ?_, ht⟩
  rw [hc] at hc'
  cases hc'

/-- with no job lost, only a caller that has returned takes no step -/
theorem progress {done stalled : List String} (hb : Books S x done [] stalled)
    (hp : x.phase.ended = false) : ∃ t, Step env S (x, st) t := by
  cases hr : x.running with
  | cons job r => exact progress_job env (show x.running = [] ++ job :: r from hr)
  | nil =>
  cases hq : x.queue with
  | cons id rest =>
    have hw : x.running.length < workers S := by
      rw [hr, workers, length_nil]
      omega
    apply progress_quiet env .take rfl
    simp [step, callOf, answer, fits, perform, hq, hw]
  | nil =>
  cases hphase : x.phase with
  | waiting =>
    have hzero : x.outstanding = 0 := by
      cases hb with
      | fresh _ _ _ ho _ => exact ho
      | dispatched _ hs =>
        have hc := hs.counted
        simpa [hr, hq] using hc
    exact progress_main env (by simp [mainNext, hphase, hzero])
  | clearing =>
    by_cases hd : x.flags.detached = 0
    · exact progress_main env (by simp [mainNext, hphase, hd])
    · apply progress_quiet env .straggler rfl
      simp [step, callOf, answer, fits, perform, hd]
  | dispatching =>
    apply progress_quiet env (.dispatch (roots S.dsl)) rfl
    simp [step, callOf, answer, fits, perform, hphase]
  | returned out | escaped => simp [hphase, ended] at hp
  | _ => exact progress_main env (by simp [mainNext, hphase, hr, hq])

end

/-! ## who may throw -/

structure MayThrow where
  store : Bool
  approval : Bool
  sandbox : Bool

def MayThrow.at (T : MayThrow) : Call → Bool
  | .approval _ => T.approval
  | .execute _ _ => T.sandbox
  | _ => T.store

def Env.Respects (env : Env) (T : MayThrow) : Prop := ∀ c, env.may c .thrown → T.at c

def calm : MayThrow := ⟨false, false, false⟩

lemma Env.Respects.not_thrown {env : Env} (h : env.Respects calm) {c : Call} :
    ¬ env.may c .thrown := by
  intro hmay
  have hat := h c hmay
  cases c <;> cases hat

def CanThrow (T : MayThrow) (n : NodeSpec) : Bool :=
  T.store || (n.type = .tool && (T.sandbox || !(n.arguments.isNull || n.arguments.isObject)))
    || (n.type = .humanApproval && T.approval)

section
variable {S : Setup} {n : NodeSpec} {fl fl' : Flags} {pc pc' : Pc} {a : Answer} {T : MayThrow}

lemma toolArgs_isOk (runId : String) (n : NodeSpec) :
    (toolArgs runId n).isOk = (n.arguments.isNull || n.arguments.isObject) := by
  rw [← Json.setKey_isOk n.arguments "__run_id" (.str runId), toolArgs]
  cases hfirst : n.arguments.setKey "__run_id" (.str runId) with
  | error e => rfl
  | ok args =>
    show (args.setKey "node_id" (.str n.id)).isOk
    rw [Json.setKey_isOk, Json.setKey_isObject hfirst, Bool.or_true]

lemma toolArgs_error {e : Json.TypeError} (h : toolArgs S.runId n = .error e) :
    (n.arguments.isNull || n.arguments.isObject) = false := by
  rw [← toolArgs_isOk S.runId n, h]
  rfl

lemma toolArgs_bad (h : (n.arguments.isNull || n.arguments.isObject) = false) :
    ∃ e, toolArgs S.runId n = .error e := by
  rw [← toolArgs_isOk S.runId n] at h
  cases hargs : toolArgs S.runId n with
  | error e => exact ⟨e, rfl⟩
  | ok args =>
    rw [hargs] at h
    cases h

lemma canThrow_of_asks (ht : Typed n pc) {c : Call} (hc : asks S n pc = some c)
    (hT : T.at c) : CanThrow T n := by
  rcases asks_cases hc with ⟨r, rfl, -⟩ | ⟨rfl, rfl, -⟩ | ⟨k, args, rfl, rfl⟩
  · have hs : T.store := hT
    simp [CanThrow, hs]
  · have ha : T.approval := hT
    have hn : n.type = .humanApproval := ht
    simp [CanThrow, ha, hn]
  · have hs : T.sandbox := hT
    have hn : n.type = .tool := ht
    simp [CanThrow, hs, hn]

lemma canThrow_of_gone {env : Env}
    (henv : ∀ c, asks S n pc = some c → env.may c .thrown → T.at c) (ht : Typed n pc)
    (ha : a.fits (asks S n pc)) (hmay : ∀ c, asks S n pc = some c → env.may c a)
    (h : runBody S n fl pc a = (fl', none)) : CanThrow T n := by
  obtain ⟨-, rfl | ⟨⟨k, rfl⟩, e, he⟩⟩ := runBody_none h
  · cases hask : asks S n pc with
    | none =>
      rw [hask] at ha
      cases ha
    | some c => exact canThrow_of_asks ht hask (henv c hask (hmay c hask))
  · have hn : n.type = .tool := ht
    have hargs := toolArgs_error he
    simp [CanThrow, hn, hargs]

end

/-! ## runs in which no body throws -/

/-- every run of `execute` is finite, and ends with the caller back -/
def Returns (env : Env) (S : Setup) : Prop :=
  ∀ st, Halts (Step env S) (init S st) ∧
    ∀ t, Reach (Step env S) (init S st) t → Stuck (Step env S) t → t.1.phase.ended

section
variable {env : Env} {S : Setup} {T : MayThrow} {s t : Exec × Store} {x : Exec} {a : Answer}
  {st : Store} {phase : Phase} {n : NodeSpec}

/-- an invariant under which no job is lost is enough -/
lemma returns_of_inv {I : Exec → Prop} (hinit : I { inDegree := inDegree S.dsl })
    (hstep : ∀ s t, I s.1 → Step env S s t → I t.1)
    (hbooks : ∀ x, I x → ∃ done stalled, Books S x done [] stalled) : Returns env S := by
  intro st
  refine ⟨halts env S _, fun t hreach hstuck => ?_⟩
  have hI : I t.1 := Reach.inv (I := fun s => I s.1) hstep hreach hinit
  obtain ⟨done, stalled, hb⟩ := hbooks t.1 hI
  cases hended : t.1.phase.ended with
  | true => rfl
  | false =>
    obtain ⟨u, hu⟩ : ∃ u, Step env S (t.1, t.2) u := progress env hb hended
    exact absurd hu (hstuck u)

lemma books_init (S : Setup) : Books S { inDegree := inDegree S.dsl } [] [] [] :=
  .fresh rfl rfl rfl rfl rfl

structure Safe (S : Setup) (x : Exec) : Prop where
  jobs : ∀ job ∈ x.running, job.node ∈ S.dsl.nodes ∧ Typed job.node job.pc
  books : ∃ done stalled, Books S x done [] stalled

lemma Safe.step
    (henv : ∀ n ∈ S.dsl.nodes, ∀ pc c, asks S n pc = some c → env.may c .thrown → T.at c)
    (hno : ∀ n ∈ S.dsl.nodes, CanThrow T n = false)
    (h : Safe S s.1) (hst : Step env S s t) : Safe S t.1 := by
  obtain ⟨e, hallow, hstep⟩ := hst
  obtain ⟨hm, -⟩ := moves_of_step hstep
  obtain ⟨done, stalled, hb⟩ := h.books
  refine ⟨?_, ?_⟩
  · refine hm.jobs h.jobs (fun id hid => ⟨(mem_nodes_of_queue hb hid).2, trivial⟩) ?_
    intro job hjob fl pc _ _ _ hrun
    exact ⟨(h.jobs job hjob).1, runBody_typed (h.jobs job hjob).2 hrun⟩
  · obtain ⟨done', lost', stalled', hb', hl⟩ := hm.books hb
    rcases hl.lost with rfl | ⟨job, hjob, hcall, fl, hrun⟩
    · exact ⟨done', stalled', hb'⟩
    -- the only other way to lose a job is an exception, and no node can throw
    · exfalso
      obtain ⟨hmem, htyped⟩ := h.jobs job hjob
      have hfit : e.answer.fits (asks S job.node job.pc) := by
        rw [← hcall]
        by_contra hne
        rw [Workflow.step, if_neg hne] at hstep
        cases hstep
      have hthrow := canThrow_of_gone (henv job.node hmem job.pc) htyped hfit
        (fun c hc => hallow c (hcall ▸ hc)) hrun
      rw [hno job.node hmem] at hthrow
      cases hthrow

/-! ## runs that are refused -/

def Phase.refused : Phase → Bool
  | .begin | .refusing | .cancelling | .returned _ | .escaped => true
  | _ => false

structure Refused (S : Setup) (x : Exec) : Prop where
  phase : x.phase.refused
  running : x.running = []
  queue : x.queue = []
  outstanding : x.outstanding = 0
  inDegree : x.inDegree = inDegree S.dsl

lemma Refused.books (h : Refused S x) : Books S x [] [] [] := by
  refine .fresh ?_ h.running h.queue h.outstanding h.inDegree
  have hp := h.phase
  cases hphase : x.phase <;> simp_all [refused, undispatched]

lemma preflight_refused (h : preflight S ≠ .creating) : (preflight S).refused := by
  unfold preflight at h ⊢
  split
  · rfl
  split
  · rfl
  split
  · rfl
  split
  · simp_all
  · rfl

section
variable (hpre : preflight S ≠ .creating)
include hpre

lemma mainNext_refused (hp : x.phase.refused)
    (h : mainNext S x st = some phase) : phase.refused := by
  unfold mainNext at h
  split at h
  case h_1 =>
    cases h
    exact preflight_refused hpre
  case h_2 =>
    cases h
    split <;> rfl
  case h_3 =>
    cases h
    rfl
  all_goals simp_all [refused]

lemma Refused.move {x' : Exec} {e : Event} (h : Refused S x)
    (hm : Moves S st x e x') : Refused S x' := by
  obtain ⟨hp, hr, hq, ho, hd⟩ := h
  cases hm with
  | main ha hnext => exact ⟨mainNext_refused hpre hp hnext, hr, hq, ho, hd⟩
  | escape hask => exact ⟨rfl, hr, hq, ho, hd⟩
  | straggler hdet => exact ⟨hp, hr, hq, ho, hd⟩
  | dispatch hphase horder => simp [hphase, refused] at hp
  | take hqueue hw => simp [hq] at hqueue
  | release hrun | stall hrun | body hrun | gone hrun => simp [hr] at hrun

lemma Refused.step (h : Refused S s.1) (hst : Step env S s t) : Refused S t.1 := by
  obtain ⟨e, -, hstep⟩ := hst
  exact h.move hpre (moves_of_step hstep).1

end

/-! ## runs in which every body succeeds or throws -/

/-- everything succeeds, except that who may throw does; the run itself can be created -/
def smoothReply (T : MayThrow) : Call → Answer
  | .upsertNodeRun _ => if T.store then .thrown else .returned
  | .approval _ => if T.approval then .thrown else .pause false
  | .execute _ _ => if T.sandbox then .thrown else .tool (.success "")
  | _ => .returned

def smooth (T : MayThrow) : Env where
  may c a := a = smoothReply T c
  fits c a h := by
    subst h
    cases c <;> simp only [smoothReply] <;> (try split) <;> rfl
  answers c := ⟨smoothReply T c, rfl⟩

lemma smooth_respects (T : MayThrow) : (smooth T).Respects T := by
  intro c h
  have h' : thrown = smoothReply T c := h
  cases c <;> simp only [smoothReply] at h'
  all_goals first | cases h' | (split at h' <;> first | assumption | cases h')

/-- where a body can be in such a run; past its calls it is the body of a node that cannot throw -/
def Fine (T : MayThrow) (n : NodeSpec) : Pc → Prop
  | .start | .entered => True
  | .askApproval => n.type = .humanApproval ∧ T.store = false
  | .attempt k _ | .opening k => n.type = .tool ∧ k = 1
  | .callTool _ => n.type = .tool ∧ T.store = false
  | .approved | .toolOk _ _ | .finish true => CanThrow T n = false
  | .toolFailed _ _ | .deadLetter _ _ | .finish false => False

lemma returned_of_ne {throws : Bool} {b : Answer} (ha : a = if throws then .thrown else b)
    (hne : a ≠ .thrown) : throws = false ∧ a = b := by
  cases throws with
  | false => exact ⟨rfl, ha⟩
  | true => exact absurd ha hne

lemma runBody_fine {fl fl' : Flags} {pc pc' : Pc}
    (hw : S.hasSandbox ∧ S.hasCallback) (hf : Fine T n pc)
    (hc : fl.cancelled = false) (ha : ∀ c, asks S n pc = some c → a = smoothReply T c)
    (h : runBody S n fl pc a = (fl', some pc')) : Fine T n pc' ∧ fl'.cancelled = false := by
  have hne : a ≠ .thrown := by
    rintro rfl
    cases h
  rw [runBody_of_ne hne] at h
  cases pc with
  | start =>
    cases h
    simp [hc, Fine]
  | entered =>
    cases hn : n.type with
    | humanApproval =>
      have hask : asks S n .entered
          = some (.upsertNodeRun ⟨n.id, 1, .waitingForApproval, "", ""⟩) := by
        simp only [asks, hn]
      have hs := (returned_of_ne (ha _ hask) hne).1
      simp only [proceed, hn] at h
      cases h
      exact ⟨⟨hn, hs⟩, hc⟩
    | tool =>
      simp only [proceed, hn] at h
      cases h
      exact ⟨⟨hn, rfl⟩, hc⟩
    | _ =>
      have hask : asks S n .entered = some (.upsertNodeRun ⟨n.id, 1, .skipped, "", ""⟩) := by
        simp only [asks, hn]
      have hs := (returned_of_ne (ha _ hask) hne).1
      simp only [proceed, hn] at h
      cases h
      exact ⟨by simp [Fine, CanThrow, hs, hn], hc⟩
  | askApproval =>
    obtain ⟨hn, hs⟩ := hf
    have hask : asks S n .askApproval = some (.approval n) := by
      rw [asks, if_pos hw.2]
    obtain ⟨hap, rfl⟩ := returned_of_ne (ha _ hask) hne
    cases h
    exact ⟨by simp [Fine, CanThrow, hs, hn, hap], hc⟩
  | approved =>
    cases h
    exact ⟨hf, hc⟩
  | attempt k err =>
    obtain ⟨hn, rfl⟩ := hf
    cases h
    rw [if_pos ⟨one_le_maxAttempts n, hc⟩]
    exact ⟨⟨hn, rfl⟩, hc⟩
  | opening k =>
    have hs := (returned_of_ne (ha _ rfl) hne).1
    cases h
    exact ⟨⟨hf.1, hs⟩, hc⟩
  | callTool k =>
    obtain ⟨hn, hs⟩ := hf
    simp only [proceed] at h
    cases hargs : toolArgs S.runId n with
    | error e =>
      rw [hargs] at h
      cases h
    | ok args =>
      have hask : asks S n (.callTool k) = some (.execute n.toolId args) := by
        simp only [asks, hargs, if_pos hw.1]
      obtain ⟨hsb, rfl⟩ := returned_of_ne (ha _ hask) hne
      have hok : (n.arguments.isNull || n.arguments.isObject) := by
        by_contra hbad
        obtain ⟨e, he⟩ := toolArgs_bad (S := S) (Bool.eq_false_of_not_eq_true hbad)
        rw [hargs] at he
        cases he
      rw [hargs] at h
      cases h
      refine ⟨?_, hc⟩
      simp only [Fine, CanThrow, hs, hn, hsb, hok]
      rfl
  | toolOk k output =>
    cases h
    exact ⟨hf, hc⟩
  | toolFailed k err | deadLetter k err => exact absurd hf id
  | finish advance =>
    cases h
    exact ⟨hf, hc⟩

structure Smooth (S : Setup) (T : MayThrow) (x : Exec) : Prop where
  jobs : ∀ job ∈ x.running, job.node ∈ S.dsl.nodes ∧ Fine T job.node job.pc
  cancelled : x.flags.cancelled = false
  books : ∃ done lost, Books S x done lost []
    ∧ ∀ id ∈ done, ∃ n ∈ S.dsl.nodes, n.id = id ∧ CanThrow T n = false
  phase : x.phase ≠ .refusing ∧ x.phase ≠ .cancelling
  ended : x.phase.ended → ∀ n ∈ S.dsl.nodes, CanThrow T n = false

lemma preflight_eq_creating_iff : preflight S = .creating
    ↔ S.activeRuns ≤ S.cfg.maxConcurrentRuns ∧ S.autonomyEnabled
      ∧ validateNoCycle S.dsl ∧ validateNoSandboxBypass none S.dsl = [] := by
  unfold preflight
  constructor
  · intro h
    split at h
    · cases h
    next hroom =>
    split at h
    · cases h
    next hautonomy =>
    split at h
    · cases h
    next hcycle =>
    split at h
    · next hbypass => exact ⟨by omega, by simpa using hautonomy, by simpa using hcycle, hbypass⟩
    · cases h
  · rintro ⟨hroom, hautonomy, hcycle, hbypass⟩
    rw [if_neg (by omega), if_neg (by simp [hautonomy]), if_neg (by simp [hcycle]), hbypass]

lemma Smooth.no_throw (hpre : preflight S = .creating) (h : Smooth S T x)
    (hp : x.phase = .closing) : ∀ n ∈ S.dsl.nodes, CanThrow T n = false := by
  obtain ⟨done, lost, hb, hdone⟩ := h.books
  have hvalid := (preflight_eq_creating_iff.1 hpre).2.2.1
  intro n hn
  have hndone : n.id ∈ done := hb.covered hp hvalid n.id (mem_map_of_mem hn)
  obtain ⟨m, hm, hid, hthrow⟩ := hdone n.id hndone
  rwa [inj_on_of_nodup_map (validateNoCycle_nodup S.dsl hvalid) hn hm hid.symm]

lemma Smooth.ended_step (hpre : preflight S = .creating) (h : Smooth S T x)
    (hnext : mainNext S x st = some phase) : (phase ≠ .refusing ∧ phase ≠ .cancelling)
      ∧ (phase.ended → ∀ n ∈ S.dsl.nodes, CanThrow T n = false) := by
  have hno := h.no_throw hpre
  have hp := h.phase
  unfold mainNext at hnext
  split at hnext
  case h_1 =>
    cases hnext
    simp [hpre, Phase.ended]
  case h_2 hphase => exact absurd hphase hp.1
  case h_3 hphase => exact absurd hphase hp.2
  case h_9 hphase =>
    cases hnext
    exact ⟨⟨by simp, by simp⟩, fun _ => hno hphase⟩
  case h_10 => cases hnext
  case h_6 | h_7 | h_8 =>
    split at hnext <;> cases hnext
    simp [Phase.ended]
  all_goals
    cases hnext
    simp [Phase.ended]

lemma Smooth.step (hw : S.hasSandbox ∧ S.hasCallback)
    (hpre : preflight S = .creating) (h : Smooth S T s.1) (hst : Step (smooth T) S s t) :
    Smooth S T t.1 := by
  obtain ⟨x, st⟩ := s
  obtain ⟨x', st'⟩ := t
  obtain ⟨e, hallow, hstep⟩ := hst
  have hm : Moves S st x e x' := (moves_of_step hstep).1
  have hx : Smooth S T x := h
  obtain ⟨done, lost, hb, hdone⟩ := hx.books
  have hfine : ∀ job ∈ x.running, ∀ fl pc, callOf S x e = asks S job.node job.pc →
      runBody S job.node x.flags job.pc e.answer = (fl, some pc) →
      Fine T job.node pc ∧ fl.cancelled = false := fun job hjob fl pc hcall hrun =>
    runBody_fine hw (hx.jobs job hjob).2 hx.cancelled (fun c hc => hallow c (hcall ▸ hc)) hrun
  have hphase : (x'.phase ≠ .refusing ∧ x'.phase ≠ .cancelling)
      ∧ (x'.phase.ended → ∀ n ∈ S.dsl.nodes, CanThrow T n = false) := by
    cases hm with
    | main ha hnext => exact hx.ended_step hpre hnext
    | escape hask =>
      have hreply : thrown = smoothReply T _ := hallow _ hask
      unfold mainAsks at hask
      split at hask <;> cases hask <;> cases hreply
    | dispatch hp ho => exact ⟨⟨by simp, by simp⟩, by simp [Phase.ended]⟩
    | _ => exact ⟨hx.phase, hx.ended⟩
  refine ⟨?_, ?_, ?_, hphase.1, hphase.2⟩
  · refine hm.jobs hx.jobs (fun id hid => ⟨(mem_nodes_of_queue hb hid).2, trivial⟩) ?_
    intro job hjob fl pc hcall _ _ hrun
    exact ⟨(hx.jobs job hjob).1, (hfine job hjob fl pc hcall hrun).1⟩
  · cases hm with
    | @body l r job a fl pc hr hpc ha hrun =>
      exact (hfine job (by simp [hr]) fl pc (callOf_node hr) hrun).2
    | gone hr hpc ha hrun =>
      obtain ⟨rfl, -⟩ := runBody_none hrun
      exact hx.cancelled
    | _ => exact hx.cancelled
  · obtain ⟨done', lost', stalled', hb', hl⟩ := hm.books hb
    obtain rfl : stalled' = [] := by
      rcases hl.stalled with hsame | ⟨job, hjob, advance, hpc, hend⟩
      · exact hsame
      · have hf := (hx.jobs job hjob).2
        rw [hpc] at hf
        rcases hend with rfl | hend
        · exact absurd hf id
        · rw [hx.cancelled] at hend
          cases hend
    refine ⟨done', lost', hb', ?_⟩
    rcases hl.done with rfl | ⟨job, hjob, hpc, rfl⟩
    · exact hdone
    · intro id hid
      rcases mem_cons.1 hid with rfl | hid
      · obtain ⟨hmem, hf⟩ := hx.jobs job hjob
        rw [hpc] at hf
        exact ⟨job.node, hmem, rfl, hf⟩
      · exact hdone id hid

lemma no_throw_of_returns (hw : S.hasSandbox ∧ S.hasCallback)
    (hpre : preflight S = .creating) (h : Returns (smooth T) S) :
    ∀ n ∈ S.dsl.nodes, CanThrow T n = false := by
  obtain ⟨hhalts, hend⟩ := h {}
  obtain ⟨t, hreach, hstuck⟩ := hhalts.exists_stuck
  have hinit : Smooth S T { inDegree := inDegree S.dsl } :=
    ⟨by simp, rfl, ⟨[], [], books_init S, by simp⟩, ⟨by simp, by simp⟩, by simp [ended]⟩
  have hsmooth : Smooth S T t.1 := Reach.inv (I := fun s => Smooth S T s.1)
    (fun _ _ hs hst => hs.step hw hpre hst) hreach hinit
  exact hsmooth.ended (hend t hreach hstuck)

end

/-! ## tools in the sandbox -/

open Agent

/-- who may throw: the store, the callback, the executor what is no `std::exception`, and the check of
the arguments at a required field that is no string -/
structure Faults where
  store : Bool
  approval : Bool
  executor : Bool
  schema : Bool

def Faults.mayThrow (F : Faults) : MayThrow := ⟨F.store, F.approval, F.executor || F.schema⟩

/-- `ToolSandbox::execute`, as the node sees it -/
def sandboxAnswer (sb : ToolSandbox) (toolId : String) (args : Json) : Answer :=
  match (sb.execute toolId args []).2 with
  | .error _ => .thrown
  | .ok r => .tool (if r.status = .success then .success r.output else .failure r.errorMessage)

def WellTyped (tools : List ToolDefinition) : Prop :=
  ∀ tool ∈ tools, ∀ fields, tool.parametersSchema.find? "required" = some (.arr fields) →
    ∀ field ∈ fields, field.isString

/-- the tools of the workflow run in a sandbox with this registry, and the rest throws by `F` only -/
structure Env.Behaves (env : Env) (F : Faults) (tools : List ToolDefinition) (dsl : WorkflowDsl) :
    Prop where
  typed : F.schema = false → WellTyped tools
  tool : ∀ n ∈ dsl.nodes, ∀ args a, env.may (.execute n.toolId args) a → a = .tool .timeout ∨
    ∃ executor, a = sandboxAnswer ⟨tools, executor⟩ n.toolId args ∨ F.executor ∧ a = .thrown ∧
      (ToolSandbox.execute ⟨tools, executor⟩ n.toolId args []).1 ≠ []
  rest : ∀ c, (∀ toolId args, c ≠ .execute toolId args) → env.may c .thrown → F.mayThrow.at c

lemma missingField_isOk (args : Json) {fields : List Json} (h : ∀ field ∈ fields, field.isString) :
    (missingField args fields).isOk := by
  induction fields with
  | nil => rfl
  | cons field fields ih =>
    have hstring := h field mem_cons_self
    cases field with
    | str s =>
      rw [missingField]
      split
      · exact ih fun f hf => h f (mem_cons_of_mem _ hf)
      · rfl
    | _ => cases hstring

lemma WellTyped.validateCall_ne {tools : List ToolDefinition} (h : WellTyped tools) (toolId : String)
    (args : Json) (e : Json.TypeError) : validateCall tools toolId args ≠ .error e := by
  unfold validateCall
  split
  · nofun
  · next tool htool =>
    split
    · nofun
    · split
      · next fields hfields =>
        have hok := missingField_isOk args (h tool (mem_of_find?_eq_some htool) fields hfields)
        cases hm : missingField args fields with
        | error e' =>
          rw [hm] at hok
          cases hok
        | ok missing => nofun
      · nofun

lemma validateCall_of_thrown {sb : ToolSandbox} {toolId : String} {args : Json}
    (h : sandboxAnswer sb toolId args = .thrown) : ∃ e, validateCall sb.registry toolId args = .error e := by
  unfold sandboxAnswer at h
  split at h
  · next e he =>
    unfold ToolSandbox.execute at he
    repeat' split at he
    all_goals cases he
    exact ⟨e, by assumption⟩
  · cases h

/-- every call of a body throws by `F` only -/
lemma Env.Behaves.at_of_thrown {env : Env} {F : Faults} {tools : List ToolDefinition}
    {dsl : WorkflowDsl} (h : env.Behaves F tools dsl) {S : Setup} {n : NodeSpec} (hn : n ∈ dsl.nodes)
    (pc : Pc) (c : Call) (hc : asks S n pc = some c) (hmay : env.may c .thrown) : F.mayThrow.at c := by
  rcases asks_cases hc with ⟨r, rfl, -⟩ | ⟨rfl, -⟩ | ⟨k, args, rfl, -⟩
  · exact h.rest _ (fun _ _ hexec => by cases hexec) hmay
  · exact h.rest _ (fun _ _ hexec => by cases hexec) hmay
  · show F.executor || F.schema
    rcases h.tool n hn args _ hmay with htime | ⟨executor, hanswer | ⟨hforeign, -⟩⟩
    · cases htime
    · obtain ⟨e, he⟩ := validateCall_of_thrown hanswer.symm
      cases hschema : F.schema with
      | true => exact Bool.or_true _
      | false => exact absurd he ((h.typed hschema).validateCall_ne _ _ e)
    · rw [hforeign, Bool.true_or]

/-- the tools of the nodes; each demands the field `1` if schemas may be ill typed -/
def nodeTools (F : Faults) (dsl : WorkflowDsl) : List ToolDefinition :=
  dsl.nodes.map fun n =>
    { id := n.toolId
      parametersSchema := if F.schema then .obj [("required", .arr [.int 1])] else .null }

lemma smooth_behaves (F : Faults) (dsl : WorkflowDsl) :
    (smooth F.mayThrow).Behaves F (nodeTools F dsl) dsl := by
  refine ⟨fun hschema tool htool fields hfields => ?_, fun n hn args a ha => .inr ?_, ?_⟩
  · obtain ⟨n, -, rfl⟩ := mem_map.1 htool
    rw [hschema] at hfields
    cases hfields
  · obtain ⟨tool, htool⟩ : ∃ tool, getTool (nodeTools F dsl) n.toolId = some tool := by
      refine Option.isSome_iff_exists.1 (find?_isSome.2 ⟨_, mem_map_of_mem hn, ?_⟩)
      simp
    obtain ⟨m, -, rfl⟩ := mem_map.1 (mem_of_find?_eq_some htool)
    have ha : a = if F.executor || F.schema then .thrown else .tool (.success "") := ha
    refine ⟨some fun _ _ _ => .ok "", ?_⟩
    cases hschema : F.schema with
    | true =>
      refine .inl ?_
      simp [ha, hschema, sandboxAnswer, ToolSandbox.execute, htool, validateCall, Json.find?,
        missingField]
    | false =>
      cases hexec : F.executor with
      | true =>
        refine .inr ⟨rfl, by simp [ha, hexec], ?_⟩
        simp [ToolSandbox.execute, htool, validateCall, hschema, Json.find?]
      | false =>
        refine .inl ?_
        simp [ha, hschema, hexec, sandboxAnswer, ToolSandbox.execute, htool, validateCall, Json.find?]
        rfl
  · intro c _ hmay
    exact smooth_respects F.mayThrow c hmay

/-- `execute` returns in every run, for every registry, store, callback and executor of which only
those in `F` may throw, exactly when it refuses the workflow, or no body can throw. -/
theorem execute_returns_iff (S : Setup) (F : Faults) :
    (∀ (tools : List ToolDefinition) (env : Env) (hasSandbox hasCallback : Bool),
        env.Behaves F tools S.dsl → Returns env { S with hasSandbox, hasCallback })
      ↔ (preflight S ≠ .creating ∨ ∀ n ∈ S.dsl.nodes, CanThrow F.mayThrow n = false) := by
  constructor
  · intro h
    by_cases hpre : preflight S = .creating
    · right
      exact no_throw_of_returns (S := { S with hasSandbox := true, hasCallback := true })
        ⟨rfl, rfl⟩ hpre (h _ (smooth F.mayThrow) true true (smooth_behaves F S.dsl))
    · exact .inl hpre
  · rintro (hpre | hno) tools env hasSandbox hasCallback henv
    · exact returns_of_inv (I := Refused _) ⟨rfl, rfl, rfl, rfl, rfl⟩
        (fun _ _ hs hst => hs.step hpre hst) fun _ hx => ⟨[], [], hx.books⟩
    · exact returns_of_inv (I := Safe _) ⟨by simp, [], [], books_init _⟩
        (fun _ _ hs hst => hs.step (fun _ hn pc c => henv.at_of_thrown hn pc c) hno hst)
        fun _ hx => hx.books

/-! ## a run that blocks -/

/-- a caller that waits for lost jobs waits for ever -/
lemma stuck_of_lost {env : Env} {S : Setup} {x : Exec} {st : Store} (hp : x.phase = .waiting)
    (hr : x.running = []) (hq : x.queue = []) (ho : x.outstanding ≠ 0)
    (hd : x.flags.detached = 0) : Stuck (Step env S) (x, st) := by
  rintro ⟨x', st'⟩ ⟨e, -, hstep⟩
  have hm : Moves S st x e x' := (moves_of_step hstep).1
  cases hm with
  | main ha hnext => simp [mainNext, hp, ho] at hnext
  | escape hask => simp [mainAsks, hp] at hask
  | dispatch hp' _ => simp [hp] at hp'
  | take hq' _ => simp [hq] at hq'
  | release hr' | stall hr' | body hr' | gone hr' => simp [hr] at hr'
  | straggler hd' => exact hd' hd

def runSmooth (T : MayThrow) (S : Setup) : Exec × Store → List Event → Option (Exec × Store)
  | s, [] => some s
  | s, e :: es =>
    if (callOf S s.1 e).all (e.answer = smoothReply T ·) then
      (step S s e).bind (runSmooth T S · es)
    else none

lemma reach_of_runSmooth {T : MayThrow} {S : Setup} (es : List Event) :
    ∀ {s t}, runSmooth T S s es = some t → Reach (Step (smooth T) S) s t := by
  refine fun {s t} h => reach_of_play (fun _ => rfl) ?_ es h
  intro s e es t h
  simp only [runSmooth] at h
  split at h
  · next hall =>
    obtain ⟨u, hu, hrest⟩ := Option.bind_eq_some_iff.1 h
    refine ⟨u, ⟨e, fun c hc => ?_, hu⟩, hrest⟩
    rw [hc] at hall
    show e.answer = smoothReply T c
    simpa using hall
  · cases h

lemma reach_first_node {S : Setup} {id : String} {rest : List String}
    (hpre : preflight S = .creating) (hroots : roots S.dsl = id :: rest) (st : Store) :
    ∃ t, Reach (Step (smooth calm) S) (init S st) t ∧
      t.1.running = [⟨byId S.dsl id, .start⟩] ∧ t.1.flags.cancelled = false := by
  have hrun : ∃ t, runSmooth calm S (init S st)
      [.main .quiet, .main .returned, .main .returned, .dispatch (roots S.dsl), .take] = some t ∧
        t.1.running = [⟨byId S.dsl id, .start⟩] ∧ t.1.flags.cancelled = false := by
    simp [runSmooth, step, init, callOf, mainAsks, perform, mainNext, answer, fits,
      smoothReply, workers, hpre, hroots]
  obtain ⟨t, ht, hstart⟩ := hrun
  exact ⟨t, reach_of_runSmooth _ ht, hstart⟩

def listArguments : Json :=
  .obj [("id", .str "w"), ("nodes", .arr [.obj [("id", .str "t"), ("tool_id", .str "echo"),
    ("arguments", .arr [])]])]

def listWorkflow : WorkflowDsl :=
  { id := "w", nodes := [{ id := "t", toolId := "echo", arguments := .arr [] }] }

def listSetup : Setup :=
  { sha256 := fun _ => "", runId := "r", dsl := listWorkflow, context := .null }

def listEvents : List Event :=
  [.main .quiet, .main .returned, .main .returned, .dispatch ["t"], .take, .node 0 .quiet,
    .node 0 .quiet, .node 0 .quiet, .node 0 .returned, .node 0 .quiet]

/-- The workflow is accepted, nothing outside throws, and the caller waits for ever: writing
`__run_id` into the arguments throws, the worker swallows it, `outstanding` stays at one. -/
theorem execute_blocks :
    parseWorkflowDslJson (fun _ => .ok listArguments) "" = .ok listWorkflow
      ∧ ∃ t, Reach (Step (smooth ⟨false, false, false⟩) listSetup) (init listSetup {}) t
        ∧ Stuck (Step (smooth ⟨false, false, false⟩) listSetup) t
        ∧ t.1.phase = .waiting ∧ t.1.outstanding = 1 := by
  refine ⟨rfl, ?_⟩
  exact ⟨_, reach_of_runSmooth listEvents rfl, stuck_of_lost rfl rfl rfl Int.one_ne_zero rfl, rfl,
    rfl⟩

end AegisGate.Workflow
