import AegisGate.Autonomy.Steps

/-!
# Approval operations in progress at the same time

Any number of `approve`, `reject`, `apply` and `rollback` calls are under way; a queue get, a queue
update and an applier call are one step each, and the steps of different calls interleave.

* `Documented`  the state machine of `approval_workflow.h`;
* `RaceEvent`, `raceStep`  an operation begins, or one of those under way makes its next call;
* `Lifecycle`  every stored state follows the machine, no proposal is applied twice, and
  none after it was rejected;
* `StepFits`  what a write and an applier call have to find at their moment.

An operation decides on the state it read, and writes the whole proposal in a later call: it keeps to
the machine from what it read (`kept_prog`), not from what is stored by then (`apply_races`).
-/

namespace AegisGate
namespace Autonomy

open List Run

def Documented (a b : ApprovalState) : Prop :=
  (a, b) ∈ [(ApprovalState.proposed, ApprovalState.approved), (.proposed, .rejected),
    (.approved, .applied), (.approved, .rejected), (.approved, .rolledBack), (.applied, .rolledBack)]

instance : DecidableRel Documented := fun _ _ => inferInstanceAs (Decidable (_ ∈ _))

section
variable {τ : Type} {id : String} {o : Option ApprovalProposal} {cur : ApprovalProposal}
  {events : List RaceEvent}

abbrev ApprovalPool (τ : Type) :=
  Proc.Pool (Shared τ) QueueCall QueueCall.Answer (Except Json.TypeError Bool)

inductive RaceEvent where
  | arrive (r : ApprovalRequest)
  | step (i : ℕ)

section
variable (d : WorkflowDeps τ)

def RaceEvent.toEvent :
    RaceEvent → Proc.Event QueueCall QueueCall.Answer (Except Json.TypeError Bool)
  | .arrive r => .spawn (r.prog d)
  | .step i => .step i

variable (P : ApprovalPool τ)

def raceStep (e : RaceEvent) : ApprovalPool τ :=
  P.step (exec d) (e.toEvent d)

def idlePool (q : ApprovalQueue) (t : τ) : ApprovalPool τ := { store := ⟨q, t, []⟩ }

def storedState (id : String) (P : ApprovalPool τ) : Option ApprovalState :=
  (P.store.queue.get id).map (·.state)

structure Lifecycle (d : WorkflowDeps τ) (P : ApprovalPool τ) (events : List RaceEvent) :
    Prop where
  machine : ∀ id, (Run.history (raceStep d) (storedState id) P events).IsChain
    (fun a b => a = b ∨ Documented a b)
  once : ∀ id, (Run.exec (raceStep d) P events).store.applied.count id ≤ 1
  notRejected : ∀ l₁ e l₂, events = l₁ ++ e :: l₂ → ∀ past p,
    (Run.exec (raceStep d) P l₁).pending (e.toEvent d) = some (past, .apply p) →
      ∀ l', l' <+: l₁ → storedState p.id (Run.exec (raceStep d) P l') ≠ some .rejected

variable (e : RaceEvent)

/-- an accepted write finds its own state stored, or one from which the machine leads to it -/
def WriteFits : Prop :=
  ∀ past p x, P.pending (e.toEvent d) = some (past, .update p) →
    (P.store.queue.update d.digest p).2 → storedState p.id P = some x →
      x = p.state ∨ Documented x p.state

/-- a proposal that is about to be applied has not been applied before -/
def FirstApply : Prop :=
  ∀ past p, P.pending (e.toEvent d) = some (past, .apply p) → p.id ∉ P.store.applied

/-- a proposal that is about to be applied is not stored as rejected -/
def NotRejected : Prop :=
  ∀ past p, P.pending (e.toEvent d) = some (past, .apply p) → storedState p.id P ≠ some .rejected

def StepFits : Prop :=
  WriteFits d P e ∧ FirstApply d P e ∧ NotRejected d P e

end

/-! ## one call -/

lemma get_update (dg : Digest) (q : ApprovalQueue) (p : ApprovalProposal) (id : String) :
    (q.update dg p).1.get id = if (q.update dg p).2 ∧ id = p.id then some p else q.get id := by
  rcases update_cases dg q p with hu | ⟨rows, hu⟩
  · rw [hu, if_neg (by simp)]
  · rw [hu]
    by_cases h : id = p.id
    · rw [if_pos ⟨rfl, h⟩, h]
      exact AList.lookup_insert _
    · rw [if_neg (h ·.2)]
      exact AList.lookup_insert_ne h

variable {d : WorkflowDeps τ} {P : ApprovalPool τ}

lemma queue_exec (c : QueueCall) (s : Shared τ) :
    (exec d c s).2.queue = match c with
      | .update p => (s.queue.update d.digest p).1
      | _ => s.queue := by
  cases c with
  | get id | update p => rfl
  | apply p | rollback p =>
    simp only [exec]
    split <;> rfl

lemma applied_exec (c : QueueCall) (s : Shared τ) :
    (exec d c s).2.applied = match c with
      | .apply p => p.id :: s.applied
      | _ => s.applied := by
  cases c with
  | get id | update p => rfl
  | apply p | rollback p =>
    simp only [exec]
    split <;> rfl

/-! ## what an operation read -/

section
variable (past : List ((c : QueueCall) × c.Answer))

def Origin (id : String) (cur : ApprovalProposal) : Prop := past.getLast? = some ⟨.get id, some cur⟩

def Called : Prop := ∃ p r, ⟨.apply p, r⟩ ∈ past

/-- past the states in which a proposal can still be applied -/
def Spent (x : ApprovalState) : Prop := x ≠ .proposed ∧ x ≠ .approved

/-- nothing is called after a write, a write keeps to the machine from the state read, and only what
was read as approved is applied -/
def FromRead : QueueCall → Prop
  | .get _ => past = []
  | .update p => (∀ q b, ⟨.update q, b⟩ ∉ past) ∧ ∃ id cur, Origin past id cur ∧ cur.id = p.id ∧
      Documented cur.state p.state ∧ (Called past → Spent p.state)
  | .apply p => ∃ id, past = [⟨.get id, some p⟩] ∧ p.state = .approved
  | .rollback _ => (∀ q b, ⟨.update q, b⟩ ∉ past) ∧ ∃ id cur, Origin past id cur

/-- the calls that an operation can end with once it has called the applier -/
def Closes : (c : QueueCall) → c.Answer → Prop
  | .update _, _ => True
  | .apply _, .error _ => True
  | .rollback _, .error _ => True
  | _, _ => False

def Ended : Prop :=
  Called past → ∃ c r tail, past = ⟨c, r⟩ :: tail ∧ Closes c r

end

abbrev KeepsRead (p : Prog (Except Json.TypeError Bool))
    (past : List ((c : QueueCall) × c.Answer)) : Prop :=
  Proc.wp FromRead (fun _ _ => True) past p (fun past _ => Ended past)

lemma not_called_read : ¬ Called [⟨.get id, o⟩] := by
  rintro ⟨p, r, h⟩
  cases mem_singleton.1 h

lemma ended_read : Ended [⟨.get id, o⟩] :=
  fun h => absurd h not_called_read

lemma kept_move {past : List ((c : QueueCall) × c.Answer)} {p : ApprovalProposal}
    (hnew : ∀ q b, ⟨.update q, b⟩ ∉ past) (hread : Origin past id cur) (hid : cur.id = p.id)
    (hdoc : Documented cur.state p.state) (hspent : Called past → Spent p.state) :
    KeepsRead (moveProg d p) past :=
  ⟨⟨hnew, id, cur, hread, hid, hdoc, hspent⟩, fun b _ _ => ⟨.update p, b, past, rfl, trivial⟩⟩

lemma noUpdate_cons {past : List ((c : QueueCall) × c.Answer)} {c : QueueCall} {r : c.Answer}
    (hc : ∀ q, c ≠ .update q) (h : ∀ q b, ⟨.update q, b⟩ ∉ past) :
    ∀ q b, ⟨.update q, b⟩ ∉ (⟨c, r⟩ :: past : List ((c : QueueCall) × c.Answer)) := by
  intro q b hmem
  rcases mem_cons.1 hmem with heq | hmem
  · exact hc q (congrArg Sigma.fst heq).symm
  · exact h q b hmem

lemma noUpdate_read :
    ∀ q b, ⟨.update q, b⟩ ∉ ([⟨.get id, o⟩] : List ((c : QueueCall) × c.Answer)) :=
  noUpdate_cons (fun _ h => by cases h) fun _ _ => not_mem_nil

lemma kept_runApplier (hst : cur.state = .approved) :
    KeepsRead (runApplierProg d cur) [⟨.get id, some cur⟩] := by
  have happlied : Documented cur.state .applied := by rw [hst]; decide
  have hback : Documented cur.state .rolledBack := by rw [hst]; decide
  have hspent : Spent .applied ∧ Spent .rolledBack := by
    simp [Spent]
  refine ⟨⟨id, rfl, hst⟩, fun result _ => ?_⟩
  have hfirst : ∀ q b, ⟨.update q, b⟩ ∉
      ([⟨.apply cur, result⟩, ⟨.get id, some cur⟩] : List ((c : QueueCall) × c.Answer)) :=
    noUpdate_cons (fun _ h => by cases h) noUpdate_read
  cases result with
  | error e => exact fun _ => ⟨.apply cur, .error e, _, rfl, trivial⟩
  | ok r =>
    cases hr : r.success with
    | true =>
      show KeepsRead (if r.success then _ else _) _
      rw [if_pos hr]
      exact kept_move hfirst rfl rfl happlied fun _ => hspent.1
    | false =>
      show KeepsRead (if r.success then _ else _) _
      rw [if_neg (by rw [hr]; exact Bool.false_ne_true)]
      refine ⟨⟨hfirst, id, cur, rfl⟩, fun back _ => ?_⟩
      cases back with
      | error e => exact fun _ => ⟨.rollback cur, .error e, _, rfl, trivial⟩
      | ok r' =>
        have hsecond := noUpdate_cons (c := .rollback cur) (r := .ok r') (fun _ h => by cases h)
          hfirst
        exact ⟨⟨hsecond, id, cur, rfl, rfl, hback, fun _ => hspent.2⟩,
          fun b _ _ => ⟨.update _, b, _, rfl, trivial⟩⟩

lemma kept_read {enabled : Bool} {k : Option ApprovalProposal → Prog (Except Json.TypeError Bool)}
    {a : Except Json.TypeError Bool} (hnone : k none = .ret a)
    (hsome : ∀ cur, KeepsRead (k (some cur)) [⟨.get id, some cur⟩]) :
    KeepsRead (if !enabled then pure (.ok false) else .call (.get id) k) [] := by
  cases enabled with
  | false =>
    rintro ⟨p, r, hmem⟩
    cases hmem
  | true =>
    refine ⟨rfl, fun o _ => ?_⟩
    cases o with
    | none =>
      rw [hnone]
      exact ended_read
    | some cur => exact hsome cur

section
variable (enabled : Bool)

lemma kept_approve (nowMs : ℤ) (id reviewer : String) :
    KeepsRead (approveProg d enabled nowMs id reviewer) [] := by
  refine kept_read rfl fun cur => ?_
  show KeepsRead (if cur.state ≠ .proposed then _ else _) _
  split
  · exact ended_read
  · next hst =>
    refine kept_move noUpdate_read rfl rfl ?_ (absurd · not_called_read)
    show Documented cur.state .approved
    rw [not_not.1 hst]
    decide

lemma kept_reject (nowMs : ℤ) (id reviewer reason : String) :
    KeepsRead (rejectProg d enabled nowMs id reviewer reason) [] := by
  refine kept_read rfl fun cur => ?_
  show KeepsRead (if cur.state ≠ .proposed ∧ cur.state ≠ .approved then _ else _) _
  split
  · exact ended_read
  · next hst =>
    refine kept_move noUpdate_read rfl rfl ?_ (absurd · not_called_read)
    show Documented cur.state .rejected
    rcases not_and_or.1 hst with hst | hst <;> rw [not_not.1 hst] <;> decide

lemma kept_apply (id : String) : KeepsRead (applyProg d enabled id) [] := by
  refine kept_read rfl fun cur => ?_
  show KeepsRead (if cur.state ≠ .approved then _ else if _ then _ else if _ then _ else _) _
  split
  · exact ended_read
  · next hst =>
    split
    · exact ended_read
    split
    · exact ended_read
    · exact kept_runApplier (not_not.1 hst)

lemma kept_rollback (id : String) : KeepsRead (rollbackProg d enabled id) [] := by
  refine kept_read rfl fun cur => ?_
  show KeepsRead (if cur.state ≠ .applied then _ else if _ then _ else _) _
  split
  · exact ended_read
  · next hst =>
    split
    · exact ended_read
    · refine ⟨⟨noUpdate_read, id, cur, rfl⟩, fun back _ => ?_⟩
      have hnot : ∀ back, ¬ Called [⟨.rollback cur, back⟩, ⟨.get id, some cur⟩] := by
        rintro back ⟨p, r, h⟩
        rcases mem_cons.1 h with h | h
        · cases h
        · cases mem_singleton.1 h
      cases back with
      | error e => exact fun h => absurd h (hnot _)
      | ok r =>
        refine kept_move (noUpdate_cons (fun _ h => by cases h) noUpdate_read) rfl rfl ?_
          (absurd · (hnot _))
        show Documented cur.state .rolledBack
        rw [not_not.1 hst]
        decide

end

theorem kept_prog (r : ApprovalRequest) : KeepsRead (r.prog d) [] := by
  cases r with
  | approve enabled nowMs id reviewer => exact kept_approve enabled nowMs id reviewer
  | reject enabled nowMs id reviewer reason => exact kept_reject enabled nowMs id reviewer reason
  | apply enabled id => exact kept_apply enabled id
  | rollback enabled id => exact kept_rollback enabled id

/-! ## one step of the pool -/

section
variable (d : WorkflowDeps τ) (P : ApprovalPool τ) (e : RaceEvent)

lemma storedState_step (id : String) :
    storedState id (raceStep d P e) = match P.pending (e.toEvent d) with
      | some (_, .update p) =>
        if (P.store.queue.update d.digest p).2 ∧ id = p.id then some p.state
        else storedState id P
      | _ => storedState id P := by
  unfold storedState raceStep
  rw [Proc.Pool.step_store]
  cases P.pending (e.toEvent d) with
  | none => rfl
  | some pc =>
    obtain ⟨past, c⟩ := pc
    simp only [queue_exec]
    cases c with
    | update p =>
      simp only [get_update]
      split <;> rfl
    | _ => rfl

lemma applied_step : (raceStep d P e).store.applied = match P.pending (e.toEvent d) with
      | some (_, .apply p) => p.id :: P.store.applied
      | _ => P.store.applied := by
  unfold raceStep
  rw [Proc.Pool.step_store]
  cases P.pending (e.toEvent d) with
  | none => rfl
  | some pc =>
    obtain ⟨past, c⟩ := pc
    simp only [applied_exec]
    cases c <;> rfl

lemma storedState_stays (id : String) (P : ApprovalPool τ) (e : RaceEvent)
    (x : ApprovalState) (h : storedState id P = some x) :
    ∃ y, storedState id (raceStep d P e) = some y := by
  rw [storedState_step]
  split
  · split
    · exact ⟨_, rfl⟩
    · exact ⟨x, h⟩
  · exact ⟨x, h⟩

/-- the machine, one step of the pool at a time -/
lemma machine_step_iff :
    (∀ id x y, storedState id P = some x → storedState id (raceStep d P e) = some y →
      x = y ∨ Documented x y) ↔ WriteFits d P e := by
  constructor
  · intro h past p x hp hacc hx
    refine h p.id x p.state hx ?_
    rw [storedState_step, hp]
    exact if_pos ⟨hacc, rfl⟩
  · intro h id x y hx hy
    rw [storedState_step] at hy
    split at hy
    · next past p hp =>
      split at hy
      · next hacc =>
        cases hy
        exact h past p x hp hacc.1 (hacc.2 ▸ hx)
      · rw [hx] at hy
        cases hy
        exact .inl rfl
    · rw [hx] at hy
      cases hy
      exact .inl rfl

end

/-! ## runs -/

variable (d : WorkflowDeps τ) (P : ApprovalPool τ)

lemma machine_iff (events : List RaceEvent) :
    (∀ id, (history (raceStep d) (storedState id) P events).IsChain
      (fun a b => a = b ∨ Documented a b)) ↔ Along (raceStep d) (WriteFits d) P events := by
  have hchain := fun id => isChain_history (fun a b => a = b ∨ Documented a b)
    (storedState_stays d id) events P
  refine (forall_congr' hchain).trans ((along_forall events P).trans ?_)
  exact along_congr (I := fun _ => True) (A := fun _ => True)
    (fun P e _ _ => machine_step_iff d P e) (fun _ _ _ _ _ => trivial) events P trivial
    (fun _ _ => trivial)

lemma nodup_step_iff (e : RaceEvent) :
    (raceStep d P e).store.applied.Nodup ↔ P.store.applied.Nodup ∧ FirstApply d P e := by
  rw [applied_step]
  split
  · next past p hp =>
    rw [nodup_cons, and_comm]
    refine and_congr_right fun _ => ⟨fun h past' p' hp' => ?_, fun h => h past p hp⟩
    rw [hp] at hp'
    cases hp'
    exact h
  · next hne => exact ⟨fun h => ⟨h, fun past p hp => absurd hp (hne past p)⟩, And.left⟩

/-- no proposal is applied twice exactly when every applier call is the first for its proposal -/
lemma nodup_applied_iff (hP : P.store.applied.Nodup)
    (events : List RaceEvent) : (Run.exec (raceStep d) P events).store.applied.Nodup ↔
      Along (raceStep d) (FirstApply d) P events := by
  induction events using List.reverseRecOn with
  | nil => exact ⟨fun _ => trivial, fun _ => hP⟩
  | append_singleton events e ih =>
    rw [exec_append, along_append, ← ih]
    refine (nodup_step_iff d _ e).trans (and_congr_right fun _ => ?_)
    exact ⟨fun h => ⟨h, trivial⟩, And.left⟩

lemma rejected_stays {d : WorkflowDeps τ} {P : ApprovalPool τ}
    (h : Along (raceStep d) (WriteFits d) P events) {l1 l2 : List RaceEvent} (h1 : l1 <+: l2)
    (h2 : l2 <+: events) (hrej : storedState id (Run.exec (raceStep d) P l1) = some .rejected) :
    storedState id (Run.exec (raceStep d) P l2) = some .rejected := by
  refine (along_stable_iff (T := fun id P => storedState id P = some .rejected) events P).1
    (h.mono ?_) l1 l2 h1 h2 id hrej
  intro P e hfit id hid
  obtain ⟨y, hy⟩ := storedState_stays d id P e .rejected hid
  rw [hy]
  rcases (machine_step_iff d P e).2 hfit id .rejected y hid hy with rfl | hdoc
  · rfl
  · cases y <;> revert hdoc <;> decide

/-- no applier call after a rejection, in a run that follows the machine -/
lemma notRejected_iff {d : WorkflowDeps τ} {P : ApprovalPool τ}
    (h : Run.Along (raceStep d) (WriteFits d) P events) :
    (∀ l1 e l2, events = l1 ++ e :: l2 → ∀ past p,
      (Run.exec (raceStep d) P l1).pending (e.toEvent d) = some (past, .apply p) →
        ∀ l', l' <+: l1 → storedState p.id (Run.exec (raceStep d) P l') ≠ some .rejected) ↔
      Run.Along (raceStep d) (NotRejected d) P events := by
  rw [Run.along_iff_split]
  constructor
  · intro hnot l1 e l2 hl past p hp
    exact hnot l1 e l2 hl past p hp l1 (prefix_refl l1)
  · intro hnot l1 e l2 hl past p hp l' hl' hrej
    have hpre : l1 <+: events := ⟨e :: l2, hl.symm⟩
    exact hnot l1 e l2 hl past p hp (rejected_stays h hl' hpre hrej)

/-- in any interleaved run, from any queue: the stored states follow the machine, no proposal is
applied twice or after a rejection, exactly when every write and every applier call fits what is
stored at its moment -/
lemma lifecycle_iff (q : ApprovalQueue) (t : τ) (events : List RaceEvent) :
    Lifecycle d (idlePool q t) events ↔
      Run.Along (raceStep d) (StepFits d) (idlePool q t) events := by
  have honce : (∀ id, (Run.exec (raceStep d) (idlePool q t) events).store.applied.count id ≤ 1) ↔
      Run.Along (raceStep d) (FirstApply d) (idlePool q t) events :=
    nodup_iff_count_le_one.symm.trans (nodup_applied_iff d _ nodup_nil events)
  unfold StepFits
  rw [Run.along_and, Run.along_and]
  constructor
  · rintro ⟨hmachine, hcount, hrej⟩
    have hw := (machine_iff d _ events).1 hmachine
    exact ⟨hw, honce.1 hcount, (notRejected_iff hw).1 hrej⟩
  · rintro ⟨hw, hfirst, hrej⟩
    exact ⟨(machine_iff d _ events).2 hw, honce.2 hfirst, (notRejected_iff hw).2 hrej⟩

end

/-! ## two races -/

def countingApplier : StepApplier ℕ where
  apply _ _ n := (.ok { success := true }, n + 1)
  rollback _ n := (.ok { success := true }, n)

def countingDeps : WorkflowDeps ℕ where
  digest := Workflow.sampleDigest
  hasAudit := false
  appliers _ := some countingApplier

def approvedProposal : ApprovalProposal where
  id := "p1"
  state := .approved
  payloadSha256 := computePayloadSha256 Workflow.sampleDigest (.obj [])

def approvedQueue : ApprovalQueue := ⟨none, AList.insert "p1" approvedProposal ∅⟩

/-- both calls of `apply` read `p1` before either writes -/
def applyTwice : List RaceEvent :=
  [.arrive (.apply true "p1"), .arrive (.apply true "p1"), .step 0, .step 1, .step 0, .step 1,
   .step 0, .step 1]

/-- `p1` is rejected between the read of `apply` and its applier call -/
def rejectDuringApply : List RaceEvent :=
  [.arrive (.apply true "p1"), .arrive (.reject true 5 "p1" "carol" "no"), .step 0, .step 1,
   .step 1, .step 0, .step 0]

theorem apply_races :
    ¬ Lifecycle countingDeps (idlePool approvedQueue 0) applyTwice ∧
      (Run.exec (raceStep countingDeps) (idlePool approvedQueue 0) applyTwice).store.targets = 2 ∧
      ¬ Lifecycle countingDeps (idlePool approvedQueue 0) rejectDuringApply ∧
      Run.history (raceStep countingDeps) (storedState "p1") (idlePool approvedQueue 0)
        rejectDuringApply = [.approved, .approved, .approved, .approved, .approved, .rejected,
          .rejected, .applied] := by
  have hhist : Run.history (raceStep countingDeps) (storedState "p1") (idlePool approvedQueue 0)
      rejectDuringApply = [.approved, .approved, .approved, .approved, .approved, .rejected,
        .rejected, .applied] := rfl
  refine ⟨fun h => ?_, rfl, fun h => ?_, hhist⟩
  · have hcount : (Run.exec (raceStep countingDeps) (idlePool approvedQueue 0)
        applyTwice).store.applied.count "p1" = 2 := rfl
    have := h.once "p1"
    omega
  · have hchain := h.machine "p1"
    revert hchain
    decide

end Autonomy
end AegisGate
