import AegisGate.Workflow.Approval
import AegisGate.Workflow.Termination

/-!
# One call of `execute` or `resume`

`WorkflowEngine::resume` gets the run, checks it, lists the node records, marks the waiting ones as
succeeded, puts the run back to `Running` and calls `execute` on what is left of the workflow.  Every
call to the store is one step.

* `Resuming`, `callStep`  where a call is, and one step of it;
* `Resuming.out`  its result, once it has returned;
* `begins`  the node whose body begins with this step;
* `Settles`  the condition on the stored run under which result and store agree.

`execute` returns from its admission and its validators without a word to the store, and `resume` has
put the run to `Running` by then (`returned_but_running`).  A stored workflow that does not parse is
taken as one that does not read.
-/

namespace AegisGate.Workflow

open Option Workflow Run

/-- where a call is; the places of `resume` itself are those before a call to the store -/
inductive Resuming where
  | getting
  | failing
  | listing (dsl : WorkflowDsl) (context : Json)
  | marking (dsl : WorkflowDsl) (context : Json) (todo : List NodeRun) (done : List String)
  | executing (S : Setup) (x : Exec)
  | refused (out : WorkflowExecutionResult)
  | escaped

/-- the call that `resume` makes returns or throws, or the `execute` under it takes a step -/
inductive CallEvent where
  | returned
  | thrown
  | exec (e : Event)

def Store.waiting (st : Store) : List NodeRun :=
  st.nodeRuns.filter (·.status = .waitingForApproval)

/-- the nodes that `resume` leaves out -/
def Store.counted (st : Store) : List String := (st.nodeRuns.filter NodeRun.counts).map (·.nodeId)

def Store.transition (st : Store) (status : RunStatus) : Store :=
  st.after (some (.transitionRunStatus status)) .returned

def entering (S : Setup) : Resuming := .executing S { inDegree := inDegree S.dsl }

section
variable (S : Setup)

def checked : Option RunRecord → Resuming
  | none => .refused { errorMessage := "run_not_found" }
  | some r =>
    if r.status ≠ .waitingForApproval then
      .refused { errorMessage := "run_not_paused", finalStatus := r.status }
    else
      match fromJson r.dslJson with
      | none => .refused { errorMessage := "dsl_corrupt" }
      | some dsl =>
        if canonicalHash S.sha256 dsl ≠ r.dslHash then .failing else .listing dsl r.contextJson

def reentered (dsl : WorkflowDsl) (context : Json) (done : List String) : Setup :=
  { S with dsl := trim dsl done, context }

/-- the next place of `resume`, when its call to the store returns -/
def resumeNext (st : Store) : Resuming → Option (Resuming × Store)
  | .getting => some (checked S st.run, st)
  | .failing =>
    some (.refused { errorMessage := "dsl_hash_mismatch" }, st.transition .failed)
  | .listing dsl context => some (.marking dsl context st.waiting st.counted, st)
  | .marking dsl context (r :: todo) done =>
    some (.marking dsl context todo done,
      st.after (some (.upsertNodeRun { r with status := .succeeded })) .returned)
  | .marking dsl context [] done =>
    some (entering (reentered S dsl context done), st.transition .running)
  | _ => none

def callStep (s : Resuming × Store) : CallEvent → Option (Resuming × Store)
  | .returned => resumeNext S s.2 s.1
  | .thrown => (resumeNext S s.2 s.1).map (fun _ => (.escaped, s.2))
  | .exec e =>
    match s.1 with
    | .executing S' x => (step S' (x, s.2) e).map (fun t => (.executing S' t.1, t.2))
    | _ => none

def CallMoves (s t : Resuming × Store) : Prop := ∃ e, callStep S s e = some t

end

def Resuming.out : Resuming → Option WorkflowExecutionResult
  | .refused out => some out
  | .executing _ x =>
    match x.phase with
    | .returned out => some out
    | _ => none
  | _ => none

def Resuming.begins : Resuming → CallEvent → Option String
  | .executing _ x, .exec (.node i _) =>
    (x.running[i]?).bind (fun job =>
      if job.pc = .start ∧ x.flags.cancelled = false then some job.node.id else none)
  | _, _ => none

/-! ## the stored run -/

section
variable {S : Setup} {st : Store} {x x' : Exec} {e : Event} {a : Answer} {st' : Store}
  {status : RunStatus} {out : WorkflowExecutionResult} {pc : Pc} {before : Option RunStatus}
  {n : NodeSpec}

lemma transition_run (st : Store) (status : RunStatus) :
    (st.transition status).run = st.run.map (fun r => { r with status }) := rfl

lemma transition_status {r : RunRecord} (h : (st.transition status).run = some r) :
    r.status = status := by
  obtain ⟨r', -, rfl⟩ := map_eq_some_iff.1 h
  rfl

lemma asks_ne_transition : asks S n pc ≠ some (.transitionRunStatus status) := by
  intro h
  rcases asks_cases h with ⟨_, hc, -⟩ | ⟨hc, -⟩ | ⟨_, _, hc, -⟩ <;> cases hc

lemma run_after_asks : (st.after (asks S n pc) a).run = st.run := by
  unfold Store.after
  split
  · next r h => exact absurd h asks_ne_createRun
  · next status h => exact absurd h asks_ne_transition
  · rfl
  · rfl

lemma step_main (h : step S (x, st) (.main a) = some (x', st')) :
    x'.phase = .escaped ∨ a ≠ .thrown ∧ a.fits (mainAsks S x) ∧
      mainNext S x st = some x'.phase ∧ st' = st.after (mainAsks S x) a := by
  obtain ⟨hm, rfl⟩ := moves_of_step h
  by_cases ha : a = .thrown
  · subst ha
    cases hm with
    | main hfit hnext =>
      left
      simp only [step, Event.answer, callOf, hfit, if_true, perform, map_some,
        some.injEq, Prod.mk.injEq] at h
      rw [← h.1]
    | escape hask => exact .inl rfl
  · cases hm with
    | main hfit hnext => exact .inr ⟨ha, hfit, hnext, rfl⟩
    | escape hask => exact absurd rfl ha

lemma step_other (h : step S (x, st) e = some (x', st')) (he : ∀ a, e ≠ .main a) :
    (x'.phase = x.phase ∨ x'.phase = .waiting) ∧ st'.run = st.run := by
  obtain ⟨hm, rfl⟩ := moves_of_step h
  cases hm with
  | main hfit hnext | escape hask => exact absurd rfl (he _)
  | dispatch hp ho => exact ⟨.inr rfl, rfl⟩
  | take hq hw | straggler hd => exact ⟨.inl rfl, rfl⟩
  | release hr hpc hc | stall hr hpc hc | body hr hpc ha hb | gone hr hpc ha hb =>
    rw [callOf_node hr]
    exact ⟨.inl rfl, run_after_asks⟩

/-- admission or a validator sends `execute` back at once -/
def Blocked (S : Setup) : Prop := ∃ out, preflight S = .returned out

lemma preflight_cases (S : Setup) :
    (∃ message, preflight S = .returned { errorMessage := message }) ∨
      (preflight S = .refusing ∧ S.autonomyEnabled = false) ∨
      (preflight S = .creating ∧ S.activeRuns ≤ S.cfg.maxConcurrentRuns ∧ S.autonomyEnabled) := by
  unfold preflight
  split
  · exact .inl ⟨_, rfl⟩
  · next hactive =>
    split
    · next hoff => exact .inr (.inl ⟨rfl, hoff⟩)
    · next hon =>
      split
      · exact .inl ⟨_, rfl⟩
      split
      · exact .inr (.inr ⟨rfl, not_lt.1 hactive, by simpa using hon⟩)
      · exact .inl ⟨_, rfl⟩

lemma preflight_out (h : preflight S = .returned out) :
    ∃ message, out = { errorMessage := message } := by
  rcases preflight_cases S with ⟨message, hm⟩ | ⟨hr, -⟩ | ⟨hc, -⟩
  · rw [h] at hm
    exact ⟨message, Phase.returned.inj hm⟩
  · rw [h] at hr
    cases hr
  · rw [h] at hc
    cases hc

lemma preflight_failed (h : preflight S = .returned out) : out.finalStatus = .failed := by
  obtain ⟨message, rfl⟩ := preflight_out h
  rfl

/-- what the store says of the run of an `execute` that began with the status `before` -/
def StatusOk (S : Setup) (before : Option RunStatus) (x : Exec) (st : Store) : Prop :=
  match x.phase with
  | .begin => st.run.map (·.status) = before
  | .returned out => ∀ r, st.run = some r → r.status = out.finalStatus ∨
      Blocked S ∧ out.finalStatus = .failed ∧ before = some r.status
  | _ => True

lemma after_transition (hfit : a.fits (some (.transitionRunStatus status))) (ha : a ≠ .thrown) :
    st.after (some (.transitionRunStatus status)) a = st.transition status := by
  cases a with
  | returned => rfl
  | thrown => exact absurd rfl ha
  | _ => cases hfit

lemma StatusOk.main (h : StatusOk S before x st) (ha : a ≠ .thrown)
    (hfit : a.fits (mainAsks S x)) (hnext : mainNext S x st = some x'.phase) :
    StatusOk S before x' (st.after (mainAsks S x) a) := by
  unfold StatusOk at h ⊢
  unfold mainNext at hnext
  unfold mainAsks at hfit ⊢
  split at hnext
  case h_1 hp =>
    rw [hp] at h ⊢
    have hst : st.after none a = st := by cases a <;> rfl
    rw [hst, ← some.inj hnext]
    cases hpre : preflight S with
    | begin => exact h
    | returned out =>
      intro r hr
      refine .inr ⟨⟨out, hpre⟩, preflight_failed hpre, ?_⟩
      rw [← h, hr]
      rfl
    | _ => trivial
  case h_2 hp =>
    rw [hp]
    rw [← some.inj hnext]
    split_ifs with hrun
    · trivial
    · intro r hr
      have hst : st.after (some .getRun) a = st := by cases a <;> rfl
      rw [hst] at hr
      rw [hr] at hrun
      exact absurd rfl hrun
  case h_3 hp | h_9 hp =>
    rw [hp] at hfit ⊢
    rw [← some.inj hnext]
    intro r hr
    rw [after_transition hfit ha] at hr
    exact .inl (transition_status hr)
  case h_10 => cases hnext
  case h_6 | h_7 | h_8 =>
    split at hnext
    · rw [← some.inj hnext]
      trivial
    · cases hnext
  all_goals
    rw [← some.inj hnext]
    trivial

lemma StatusOk.step (h : StatusOk S before x st) (hstep : step S (x, st) e = some (x', st')) :
    StatusOk S before x' st' := by
  by_cases he : ∃ a, e = .main a
  · obtain ⟨a, rfl⟩ := he
    rcases step_main hstep with hesc | ⟨ha, hfit, hnext, rfl⟩
    · unfold StatusOk
      rw [hesc]
      trivial
    · exact h.main ha hfit hnext
  · obtain ⟨hphase, hrun⟩ := step_other hstep (fun a hea => he ⟨a, hea⟩)
    unfold StatusOk at h ⊢
    rcases hphase with hphase | hphase
    · rw [hphase, hrun]
      exact h
    · rw [hphase]
      trivial

end

/-! ## result and store -/

inductive Entry where
  | execute
  | resume

def Entry.place (S : Setup) : Entry → Resuming
  | execute => entering S
  | resume => .getting

/-- `resume` gets past its checks with this workflow and context -/
def Resumable (S : Setup) (st : Store) (dsl : WorkflowDsl) (context : Json) : Prop :=
  ∃ r, st.run = some r ∧ r.status = .waitingForApproval ∧ fromJson r.dslJson = some dsl ∧
    canonicalHash S.sha256 dsl = r.dslHash ∧ r.contextJson = context

/-- an `execute` that is sent back at once finds the run failed already; a `resume` can read the
workflow, and is not sent back after its checks -/
def Settles (S : Setup) (st : Store) : Entry → Prop
  | .execute => Blocked S → ∀ r, st.run = some r → r.status = .failed
  | .resume => ∀ r, st.run = some r → r.status = .waitingForApproval →
    ∃ dsl, fromJson r.dslJson = some dsl ∧ (canonicalHash S.sha256 dsl = r.dslHash →
        ¬ Blocked (reentered S dsl r.contextJson st.counted))

/-- what the store says of the run at each place of a `resume` that began with the store `st₀` -/
def PlaceOk (S : Setup) (st₀ : Store) (st : Store) : Resuming → Prop
  | .getting => st = st₀
  | .failing => True
  | .listing dsl context => st = st₀ ∧ Resumable S st₀ dsl context
  | .marking dsl context _ done => done = st₀.counted ∧ Resumable S st₀ dsl context
  | .executing S' x => ∃ dsl context before, Resumable S st₀ dsl context ∧
      S' = reentered S dsl context st₀.counted ∧ (∀ status, before = some status → status = .running) ∧
      StatusOk S' before x st
  | .refused out => ∀ r, st.run = some r → r.status = out.finalStatus ∨
      st₀.run = some r ∧ r.status = .waitingForApproval ∧ fromJson r.dslJson = none
  | .escaped => True

section
variable {S : Setup} {st₀ st st' : Store} {q q' : Resuming} {r : RunRecord}
  {out : WorkflowExecutionResult} {before : Option RunStatus} {dsl : WorkflowDsl} {x : Exec}

lemma PlaceOk.checked (S : Setup) (st₀ : Store) : PlaceOk S st₀ st₀ (checked S st₀.run) := by
  cases hrun : st₀.run with
  | none =>
    intro r hr
    rw [hrun] at hr
    cases hr
  | some r =>
    unfold Workflow.checked
    simp only
    split
    · intro r' hr'
      rw [hrun] at hr'
      cases hr'
      exact .inl rfl
    · next hst =>
      have hst : r.status = .waitingForApproval := not_not.1 hst
      cases hdsl : fromJson r.dslJson with
      | none =>
        intro r' hr'
        rw [hrun] at hr'
        cases hr'
        exact .inr ⟨hrun, hst, hdsl⟩
      | some dsl =>
        simp only
        split
        · trivial
        · next hhash => exact ⟨rfl, r, hrun, hst, hdsl, not_not.1 hhash, rfl⟩

lemma checked_cases (S : Setup) (st : Store) :
    (∃ out, checked S st.run = .refused out ∧ out.ok = false) ∨ checked S st.run = .failing ∨
      ∃ dsl context, checked S st.run = .listing dsl context ∧ Resumable S st dsl context := by
  unfold checked
  split
  · exact .inl ⟨_, rfl, rfl⟩
  · next r hrun =>
    split
    · exact .inl ⟨_, rfl, rfl⟩
    · next hst =>
      split
      · exact .inl ⟨_, rfl, rfl⟩
      · next dsl hdsl =>
        split
        · exact .inr (.inl rfl)
        · next hhash =>
          exact .inr (.inr ⟨dsl, r.contextJson, rfl, r, hrun, not_not.1 hst, hdsl, not_not.1 hhash,
            rfl⟩)

lemma StatusOk.entering (S : Setup) (st : Store) :
    StatusOk S (st.run.map (·.status)) { inDegree := inDegree S.dsl } st := rfl

lemma PlaceOk.step (h : PlaceOk S st₀ st q) (hstep : CallMoves S (q, st) (q', st')) :
    PlaceOk S st₀ st' q' := by
  obtain ⟨ev, hev⟩ := hstep
  cases ev with
  | thrown =>
    obtain ⟨-, -, heq⟩ := map_eq_some_iff.1 hev
    cases heq
    trivial
  | exec e =>
    cases q with
    | executing S' x =>
      obtain ⟨t, ht, heq⟩ := map_eq_some_iff.1 hev
      cases heq
      obtain ⟨dsl, context, before, hres, hS, hbefore, hok⟩ := h
      exact ⟨dsl, context, before, hres, hS, hbefore, hok.step ht⟩
    | _ => cases hev
  | returned =>
    cases q with
    | getting =>
      cases hev
      cases h
      exact PlaceOk.checked S st₀
    | failing =>
      cases hev
      intro r hr
      exact .inl (transition_status hr)
    | listing dsl context =>
      cases hev
      obtain ⟨rfl, hres⟩ := h
      exact ⟨rfl, hres⟩
    | marking dsl context todo done =>
      obtain ⟨rfl, hres⟩ := h
      cases todo with
      | cons r todo =>
        cases hev
        exact ⟨rfl, hres⟩
      | nil =>
        cases hev
        refine ⟨dsl, context, _, hres, rfl, fun status hs => ?_, StatusOk.entering _ _⟩
        obtain ⟨r, hr, rfl⟩ := map_eq_some_iff.1 hs
        exact transition_status hr
    | executing S' x | refused out | escaped => cases hev

lemma executing_step (h : StatusOk S before x st)
    (hstep : CallMoves S (.executing S x, st) (q', st')) :
    ∃ x', q' = .executing S x' ∧ StatusOk S before x' st' := by
  obtain ⟨ev, hev⟩ := hstep
  cases ev with
  | returned | thrown => cases hev
  | exec e =>
    obtain ⟨t, ht, heq⟩ := map_eq_some_iff.1 hev
    cases heq
    exact ⟨t.1, rfl, h.step ht⟩

lemma StatusOk.returned {S0 : Setup} (h : StatusOk S before x st)
    (hout : (Resuming.executing S0 x).out = some out) (hr : st.run = some r) :
    r.status = out.finalStatus ∨ Blocked S ∧ out.finalStatus = .failed ∧ before = some r.status := by
  unfold Resuming.out at hout
  unfold StatusOk at h
  simp only at hout
  split at hout
  · next out' hp =>
    cases hout
    rw [hp] at h
    exact h r hr
  · cases hout

/-! ## the runs that disagree -/

lemma reach_blocked (hpre : preflight S = .returned out) (S0 : Setup) (st : Store) :
    Reach (CallMoves S0) (entering S, st)
      (.executing S { phase := .returned out, inDegree := inDegree S.dsl }, st) := by
  refine Reach.head ⟨.exec (.main .quiet), ?_⟩ (Reach.refl _)
  simp only [callStep, entering, step, Event.answer, callOf, mainAsks, Answer.fits,
    perform, mainNext, hpre]
  rfl

lemma reach_reentered (dsl : WorkflowDsl) (context : Json) (done : List String)
    (todo : List NodeRun) : ∀ st : Store, ∃ st' : Store, st'.run = st.run ∧
      Reach (CallMoves S) (.marking dsl context todo done, st)
        (entering (reentered S dsl context done), st'.transition .running) := by
  induction todo with
  | nil =>
    intro st
    exact ⟨st, rfl, Reach.head ⟨.returned, rfl⟩ (Reach.refl _)⟩
  | cons r todo ih =>
    intro st
    obtain ⟨st', hrun, hreach⟩ :=
      ih (st.after (some (.upsertNodeRun { r with status := .succeeded })) .returned)
    exact ⟨st', hrun, Reach.head ⟨.returned, rfl⟩ hreach⟩

section
variable (hrun : st.run = some r)
include hrun

section
variable (hst : r.status = .waitingForApproval)
include hst

lemma reach_corrupt (hdsl : fromJson r.dslJson = none) :
    Reach (CallMoves S) (.getting, st) (.refused { errorMessage := "dsl_corrupt" }, st) := by
  have hchecked : checked S st.run = .refused { errorMessage := "dsl_corrupt" } := by
    rw [hrun]
    unfold checked
    simp only [hst, hdsl, ne_eq, not_true_eq_false, if_false]
  refine Reach.head ⟨.returned, ?_⟩ (Reach.refl _)
  simp only [callStep, resumeNext, hchecked]

lemma reach_marking (hdsl : fromJson r.dslJson = some dsl)
    (hhash : canonicalHash S.sha256 dsl = r.dslHash) : Reach (CallMoves S) (.getting, st)
      (.marking dsl r.contextJson st.waiting st.counted, st) := by
  have hchecked : checked S st.run = .listing dsl r.contextJson := by
    rw [hrun]
    unfold checked
    simp only [hst, hdsl, hhash, ne_eq, not_true_eq_false, if_false]
  have hget : CallMoves S (.getting, st) (.listing dsl r.contextJson, st) := by
    refine ⟨.returned, ?_⟩
    simp only [callStep, resumeNext, hchecked]
  exact Reach.head hget (Reach.head ⟨.returned, rfl⟩ (Reach.refl _))

/-- a `resume` whose `execute` is sent back leaves the run at `Running` -/
lemma reach_sent_back (hdsl : fromJson r.dslJson = some dsl)
    (hhash : canonicalHash S.sha256 dsl = r.dslHash)
    (hout : preflight (reentered S dsl r.contextJson st.counted) = .returned out) :
    ∃ q st', Reach (CallMoves S) (.getting, st) (q, st') ∧ q.out = some out ∧
      st'.run = some { r with status := .running } := by
  obtain ⟨st', hrun', hre⟩ := reach_reentered (S := S) dsl r.contextJson st.counted st.waiting st
  refine ⟨_, _, ((reach_marking hrun hst hdsl hhash).trans hre).trans (reach_blocked hout S _),
    rfl, ?_⟩
  rw [transition_run, hrun', hrun]
  rfl

end

end

/-! ## the runs that agree -/

lemma execute_agrees (h : Settles S st₀ .execute)
    (hreach : Reach (CallMoves S) (entering S, st₀) (q, st)) (hq : q.out = some out)
    (hr : st.run = some r) : r.status = out.finalStatus := by
  have hinv := hreach.inv
    (I := fun s => ∃ x, s.1 = .executing S x ∧ StatusOk S (st₀.run.map (·.status)) x s.2)
    (by
      rintro ⟨_, st1⟩ ⟨q2, st2⟩ ⟨x, rfl, hok⟩ hstep
      exact executing_step hok hstep)
    ⟨_, rfl, StatusOk.entering S st₀⟩
  obtain ⟨x, rfl, hok⟩ := hinv
  rcases hok.returned hq hr with hagree | ⟨hblocked, hfailed, hbefore⟩
  · exact hagree
  · obtain ⟨r0, hr0, hst⟩ := map_eq_some_iff.1 hbefore
    rw [hfailed, ← hst]
    exact h hblocked r0 hr0

lemma resume_agrees (h : Settles S st₀ .resume)
    (hreach : Reach (CallMoves S) (.getting, st₀) (q, st)) (hq : q.out = some out)
    (hr : st.run = some r) : r.status = out.finalStatus := by
  have hinv : PlaceOk S st₀ st q := hreach.inv
    (I := fun s : Resuming × Store => PlaceOk S st₀ s.2 s.1)
    (fun _ _ hs hstep => hs.step hstep) rfl
  cases q with
  | refused out' =>
    cases hq
    rcases hinv r hr with hagree | ⟨hr0, hst, hdsl⟩
    · exact hagree
    · obtain ⟨dsl, hsome, -⟩ := h r hr0 hst
      rw [hdsl] at hsome
      cases hsome
  | executing S' x =>
    obtain ⟨dsl, context, before, ⟨r0, hr0, hst, hdsl, hhash, rfl⟩, rfl, hbefore, hok⟩ := hinv
    rcases hok.returned hq hr with hagree | ⟨hblocked, -, -⟩
    · exact hagree
    · obtain ⟨dsl', hdsl', hnot⟩ := h r0 hr0 hst
      rw [hdsl] at hdsl'
      cases hdsl'
      exact absurd hblocked (hnot hhash)
  | _ => cases hq

end

/-- for every store, admission and entry: when the call returns for a stored run, the stored status
is the returned one, exactly when `Settles` holds of the store before -/
theorem status_agrees_iff (S : Setup) (st₀ : Store) (entry : Entry) :
    (∀ q st, Reach (CallMoves S) (entry.place S, st₀) (q, st) →
      ∀ out r, q.out = some out → st.run = some r → r.status = out.finalStatus) ↔
      Settles S st₀ entry := by
  cases entry with
  | execute =>
    constructor
    · rintro h ⟨out, hout⟩ r hr
      rw [h _ _ (reach_blocked hout S st₀) out r rfl hr]
      exact preflight_failed hout
    · exact fun h q st hreach out r hq hr => execute_agrees h hreach hq hr
  | resume =>
    constructor
    · intro h r hr hst
      cases hdsl : fromJson r.dslJson with
      | none =>
        have hagree := h _ _ (reach_corrupt hr hst hdsl) _ r rfl hr
        rw [hst] at hagree
        cases hagree
      | some dsl =>
        refine ⟨dsl, rfl, ?_⟩
        rintro hhash ⟨out, hout⟩
        obtain ⟨q, st, hreach, hq, hrun⟩ := reach_sent_back hr hst hdsl hhash hout
        have hagree := h q st hreach out _ hq hrun
        rw [preflight_failed hout] at hagree
        cases hagree
    · exact fun h q st hreach out r hq hr => resume_agrees h hreach hq hr

def approvalOnly : Setup := reviewed [{ id := "a", type := .humanApproval, toolId := "reviewer" }]

/-- as an `execute` of `approvalOnly` that was paused leaves the store -/
def pausedStore : Store where
  run := some { runRecord approvalOnly with status := .waitingForApproval }
  nodeRuns := [⟨"a", 1, .waitingForApproval, "", ""⟩]

/-- `resume` is turned away by the admission of `execute`: the run is `Running` in the store -/
theorem returned_but_running :
    ∃ q st out r, Reach (CallMoves { approvalOnly with activeRuns := 17 })
        (Entry.resume.place approvalOnly, pausedStore) (q, st) ∧
      q.out = some out ∧ out.errorMessage = "backpressure_rejected" ∧ out.finalStatus = .failed ∧
      st.run = some r ∧ r.status = .running := by
  have hget : Reach (CallMoves { approvalOnly with activeRuns := 17 }) (.getting, pausedStore)
      (.marking approvalOnly.dsl .null pausedStore.waiting pausedStore.counted, pausedStore) :=
    reach_marking (r := { runRecord approvalOnly with status := .waitingForApproval })
      rfl rfl rfl rfl
  have hmark := Reach.tail (Reach.tail hget ⟨.returned, rfl⟩) ⟨.returned, rfl⟩
  have hreach := hmark.trans (reach_blocked rfl _ _)
  exact ⟨_, _, { errorMessage := "backpressure_rejected" },
    { runRecord approvalOnly with status := .running }, hreach, rfl, rfl, rfl, rfl, rfl⟩

end AegisGate.Workflow
