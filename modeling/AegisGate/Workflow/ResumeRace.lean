import AegisGate.Workflow.Outcome

/-!
# Several `resume` calls on one paused run

`WorkflowEngine::resume` reads the status of the run in one call to the store and puts the run back to
`Running` in another, with the listing and the marks in between.  Two calls that both read
`WaitingForApproval` both execute what is left.

* `Race`, `raceStep`  any number of calls over one store, in any order, with any answers;
* `CanRun`  something is left of the paused run that the validators let through;
* `Resting`  an `execute` that will not run a node: it is turned away, or has none.

Nothing keeps a second call out but the admission of `execute`: each node is executed by at most one
call exactly when at most one call is let in, or nothing is left to run (`resume_once_iff`).
-/

namespace AegisGate.Workflow

open List Position Run

/-! ## calls over one store -/

structure Admission where
  activeRuns : Int := 1
  autonomyEnabled : Bool := true

def Setup.under (S : Setup) (a : Admission) : Setup :=
  { S with activeRuns := a.activeRuns, autonomyEnabled := a.autonomyEnabled }

structure Race where
  calls : List (Setup × Resuming)
  store : Store
  /-- the bodies that began, each with the call that began it -/
  begun : List (Nat × String) := []

def raceStep (s : Race) (i : Nat) (e : CallEvent) : Option Race :=
  (s.calls[i]?).bind (fun c => (callStep c.1 (c.2, s.store) e).map (fun t =>
    { calls := s.calls.set i (c.1, t.1), store := t.2
      begun := (c.2.begins e).toList.map (fun id => (i, id)) ++ s.begun }))

def RaceMoves (s t : Race) : Prop := ∃ i e, raceStep s i e = some t

def racing (S : Setup) (st : Store) (admissions : List Admission) : Race where
  calls := admissions.map (fun a => (S.under a, .getting))
  store := st

def CanRun (S : Setup) (r : RunRecord) (gone : List String) : Prop :=
  ∃ dsl, fromJson r.dslJson = some dsl ∧ canonicalHash S.sha256 dsl = r.dslHash ∧
    validateNoCycle (trim dsl gone) ∧ validateNoSandboxBypass none (trim dsl gone) = [] ∧
    (trim dsl gone).nodes ≠ []

section
variable {s t : Race} {i : Nat} {e : CallEvent}

lemma raceStep_cases (h : raceStep s i e = some t) :
    ∃ S q q' st', s.calls[i]? = some (S, q) ∧ callStep S (q, s.store) e = some (q', st') ∧
      t.calls = s.calls.set i (S, q') ∧ t.store = st' ∧
      t.begun = (q.begins e).toList.map (fun id => (i, id)) ++ s.begun := by
  obtain ⟨⟨S, q⟩, hc, h⟩ := Option.bind_eq_some_iff.1 h
  obtain ⟨⟨q', st'⟩, hstep, rfl⟩ := Option.map_eq_some_iff.1 h
  exact ⟨S, q, q', st', hc, hstep, rfl, rfl, rfl⟩

lemma raceStep_of_call {S : Setup} {q : Resuming} {u : Resuming × Store}
    (hc : s.calls[i]? = some (S, q)) (h : callStep S (q, s.store) e = some u) :
    RaceMoves s { calls := s.calls.set i (S, u.1), store := u.2
                  begun := (q.begins e).toList.map (fun id => (i, id)) ++ s.begun } := by
  refine ⟨i, e, ?_⟩
  simp only [raceStep, hc, Option.bind_some, h, Option.map_some]

end

/-! ## an `execute` without a node to run -/

def Resting (S : Setup) (x : Exec) : Prop :=
  (preflight S ≠ .creating ∧ Refused S x) ∨
    S.dsl.nodes = [] ∧ ∃ done lost stalled, Books S x done lost stalled

section
variable {S : Setup} {x x' : Exec} {st st' : Store} {e : Event}

lemma resting_init (h : preflight S ≠ .creating ∨ S.dsl.nodes = []) :
    Resting S { inDegree := inDegree S.dsl } := by
  rcases h with hpre | hnil
  · exact .inl ⟨hpre, rfl, rfl, rfl, rfl, rfl⟩
  · exact .inr ⟨hnil, [], [], [], books_init S⟩

section
variable (h : Resting S x)
include h

lemma Resting.running : x.running = [] := by
  rcases h with ⟨-, hrefused⟩ | ⟨hnil, done, lost, stalled, hb⟩
  · exact hrefused.running
  · exact hb.running_of_no_nodes hnil

lemma Resting.step (hstep : step S (x, st) e = some (x', st')) : Resting S x' := by
  obtain ⟨hm, -⟩ := moves_of_step hstep
  rcases h with ⟨hpre, hrefused⟩ | ⟨hnil, done, lost, stalled, hb⟩
  · exact .inl ⟨hpre, hrefused.move hpre hm⟩
  · obtain ⟨done', lost', stalled', hb', -⟩ := hm.books hb
    exact .inr ⟨hnil, done', lost', stalled', hb'⟩

lemma Resting.nodeRuns (hstep : Workflow.step S (x, st) e = some (x', st')) :
    st'.nodeRuns = st.nodeRuns := by
  obtain ⟨-, rfl⟩ := moves_of_step hstep
  refine nodeRuns_after_of_ne fun r hr => ?_
  obtain ⟨job, hjob, -⟩ := callOf_upsert hr
  rw [h.running] at hjob
  cases hjob

lemma Resting.begins (e : CallEvent) : (Resuming.executing S x).begins e = none := by
  cases e with
  | exec e => cases e <;> simp [Resuming.begins, h.running]
  | _ => rfl

end

lemma resumeNext_executing {S' : Setup} {q : Resuming}
    (h : resumeNext S st q = some (.executing S' x, st')) :
    ∃ dsl context done, q = .marking dsl context [] done ∧ S' = reentered S dsl context done ∧
      x = { inDegree := inDegree S'.dsl } ∧ st' = st.transition .running := by
  cases q with
  | getting =>
    simp only [resumeNext, Option.some.injEq, Prod.mk.injEq] at h
    obtain ⟨hchecked, -⟩ := h
    rcases checked_cases S st with ⟨out, hc, -⟩ | hc | ⟨dsl, context, hc, -⟩ <;>
      rw [hc] at hchecked <;> cases hchecked
  | marking dsl context todo done =>
    cases todo with
    | nil =>
      cases h
      exact ⟨dsl, context, done, rfl, rfl, rfl, rfl⟩
    | cons r todo => cases h
  | _ => cases h

end

/-! ## calls that are not let in -/

section
variable {S S' : Setup} {q q' : Resuming} {st st' : Store} {e : CallEvent}

/-- a call whose `execute` will rest, if it comes to one -/
def Shut (q : Resuming) : Prop := ∀ S x, q = .executing S x → Resting S x

lemma Shut.begins (h : Shut q) (e : CallEvent) : q.begins e = none := by
  by_cases hex : ∃ S x, q = .executing S x
  · obtain ⟨S, x, rfl⟩ := hex
    exact (h S x rfl).begins e
  · cases q with
    | executing S x => exact absurd ⟨S, x, rfl⟩ hex
    | _ => rfl

lemma Shut.step (hS : ¬ S.Admits) (h : Shut q) (hstep : callStep S (q, st) e = some (q', st')) :
    Shut q' := by
  rintro S' x rfl
  cases e with
  | returned =>
    obtain ⟨dsl, context, done, rfl, rfl, rfl, rfl⟩ := resumeNext_executing hstep
    apply resting_init
    refine .inl fun hpre => hS ?_
    have hadm : (reentered S dsl context done).Admits := admits_of_preflight hpre
    exact hadm
  | thrown =>
    obtain ⟨-, -, heq⟩ := Option.map_eq_some_iff.1 hstep
    cases heq
  | exec e =>
    cases q with
    | executing S1 x1 =>
      obtain ⟨t, ht, heq⟩ := Option.map_eq_some_iff.1 hstep
      cases heq
      exact (h _ _ rfl).step ht
    | _ => cases hstep

structure Gated (S : Setup) (admissions : List Admission) (s : Race) : Prop where
  setups : ∀ (i : Nat) (c : Setup × Resuming), s.calls[i]? = some c →
    ∃ a, admissions[i]? = some a ∧ c.1 = S.under a
  shut : ∀ (i : Nat) (c : Setup × Resuming), s.calls[i]? = some c → ¬ c.1.Admits → Shut c.2
  begun : ∀ (i : Nat) (id : String), (i, id) ∈ s.begun →
    ∃ a, admissions[i]? = some a ∧ (S.under a).Admits

lemma gated_racing (S : Setup) (st : Store) (admissions : List Admission) :
    Gated S admissions (racing S st admissions) := by
  refine ⟨?_, ?_, ?_⟩
  · intro i c hc
    obtain ⟨a, ha, rfl⟩ := Option.map_eq_some_iff.1 (getElem?_map .. ▸ hc)
    exact ⟨a, ha, rfl⟩
  · intro i c hc _ S' x hx
    obtain ⟨a, ha, rfl⟩ := Option.map_eq_some_iff.1 (getElem?_map .. ▸ hc)
    cases hx
  · exact nofun

lemma Gated.step {admissions : List Admission} {s t : Race} (h : Gated S admissions s)
    (hst : RaceMoves s t) : Gated S admissions t := by
  obtain ⟨i, e, hstep⟩ := hst
  obtain ⟨S0, q, q', st', hc, hcall, hcalls, -, hbegun⟩ := raceStep_cases hstep
  refine ⟨?_, ?_, ?_⟩
  · intro j c hj
    rw [hcalls] at hj
    rcases getElem?_set_cases hj with ⟨rfl, rfl⟩ | ⟨-, hj⟩
    · exact h.setups j (S0, q) hc
    · exact h.setups j c hj
  · intro j c hj hnot
    rw [hcalls] at hj
    rcases getElem?_set_cases hj with ⟨rfl, rfl⟩ | ⟨-, hj⟩
    · exact Shut.step hnot (h.shut j (S0, q) hc hnot) hcall
    · exact h.shut j c hj hnot
  · intro j id hid
    rw [hbegun] at hid
    rcases mem_append.1 hid with hid | hid
    · -- the call that begins a body is let in
      obtain ⟨id', hid', heq⟩ := mem_map.1 hid
      cases heq
      obtain ⟨a, ha, hSa⟩ := h.setups i (S0, q) hc
      refine ⟨a, ha, ?_⟩
      by_contra hnot
      rw [← hSa] at hnot
      rw [(h.shut i (S0, q) hc hnot).begins e] at hid'
      cases hid'
    · exact h.begun j id hid

end

/-! ## a run with nothing left to run -/

section
variable {S S' : Setup} {q q' : Resuming} {st st' : Store} {e : CallEvent} {r : RunRecord}
  {gone : List String}

lemma mem_counted {id : String} :
    id ∈ st.counted ↔ ∃ y ∈ st.nodeRuns, y.nodeId = id ∧ y.counts := by
  simp only [Store.counted, mem_map, mem_filter]
  constructor
  · rintro ⟨y, ⟨hy, hcounts⟩, rfl⟩
    exact ⟨y, hy, rfl, hcounts⟩
  · rintro ⟨y, hy, rfl, hcounts⟩
    exact ⟨y, ⟨hy, hcounts⟩, rfl⟩

lemma mem_counted_of_waiting {y : NodeRun} (hy : y ∈ st.waiting) : y.nodeId ∈ st.counted := by
  obtain ⟨hmem, hs⟩ := mem_filter.1 hy
  exact mem_counted.2 ⟨y, hmem, rfl, by simp [NodeRun.counts, hs]⟩

lemma trim_congr {D : WorkflowDsl} {a b : List String} (h : ∀ id, id ∈ a ↔ id ∈ b) :
    trim D a = trim D b := by
  unfold trim
  simp only [h]

/-- the stored workflow, and the nodes that a `resume` leaves out, are as they were -/
structure Untouched (r : RunRecord) (gone : List String) (st : Store) : Prop where
  run : ∃ r', st.run = some r' ∧ r'.dslJson = r.dslJson ∧ r'.dslHash = r.dslHash
  counted : ∀ id, id ∈ st.counted ↔ id ∈ gone

lemma Untouched.after {c : Option Call} {a : Answer} (h : Untouched r gone st)
    (hc : ∀ id, id ∈ (st.after c a).counted ↔ id ∈ st.counted) :
    Untouched r gone (st.after c a) := by
  refine ⟨?_, fun id => (hc id).trans (h.counted id)⟩
  obtain ⟨r', hr', hjson, hhash⟩ := h.run
  have hsome : (st.after c a).run.isSome := isSome_run_after (by rw [hr']; rfl)
  obtain ⟨r1, hr1⟩ := Option.isSome_iff_exists.1 hsome
  refine ⟨r1, hr1, ?_⟩
  rcases run_after hr1 with ⟨r2, hr2, hjson2, hhash2⟩ | ⟨hnone, -⟩
  · rw [hr'] at hr2
    cases hr2
    exact ⟨hjson2.trans hjson, hhash2.trans hhash⟩
  · rw [hr'] at hnone
    cases hnone

lemma Untouched.mark {y : NodeRun} (h : Untouched r gone st) (hy : y.nodeId ∈ gone) :
    Untouched r gone
      (st.after (some (.upsertNodeRun { y with status := .succeeded })) .returned) := by
  refine h.after fun id => ?_
  have hmark : ({ y with status := .succeeded } : NodeRun).counts := by
    simp [NodeRun.counts]
  rw [mem_counted, mem_counted]
  refine (exists_upsertNodeRun fun _ => hmark).trans ?_
  constructor
  · rintro (hold | ⟨rfl, -⟩)
    · exact hold
    · exact mem_counted.1 ((h.counted y.nodeId).2 hy)
  · exact .inl

def PlaceSpent (S : Setup) (r : RunRecord) (gone : List String) : Resuming → Prop
  | .listing dsl _ => fromJson r.dslJson = some dsl ∧ canonicalHash S.sha256 dsl = r.dslHash
  | .marking dsl _ todo done =>
    (fromJson r.dslJson = some dsl ∧ canonicalHash S.sha256 dsl = r.dslHash) ∧
      (∀ id, id ∈ done ↔ id ∈ gone) ∧ ∀ y ∈ todo, y.nodeId ∈ gone
  | .executing S' x => Resting S' x
  | _ => True

lemma PlaceSpent.shut (h : PlaceSpent S r gone q) : Shut q := by
  rintro S' x rfl
  exact h

section
variable (hnot : ¬ CanRun S r gone)
include hnot

lemma resting_reentered {dsl : WorkflowDsl} {context : Json} {done : List String}
    (hdsl : fromJson r.dslJson = some dsl)
    (hhash : canonicalHash S.sha256 dsl = r.dslHash) (hdone : ∀ id, id ∈ done ↔ id ∈ gone)
    (S0 : Setup) : Resting (reentered S0 dsl context done)
      { inDegree := inDegree (reentered S0 dsl context done).dsl } := by
  have htrim : (reentered S0 dsl context done).dsl = trim dsl gone := trim_congr hdone
  apply resting_init
  by_cases hpre : preflight (reentered S0 dsl context done) = .creating
  · right
    by_contra hne
    obtain ⟨-, -, hcycle, hbypass⟩ := preflight_eq_creating_iff.1 hpre
    rw [htrim] at hne hcycle hbypass
    exact hnot ⟨dsl, hdsl, hhash, hcycle, hbypass, hne⟩
  · exact .inl hpre

lemma PlaceSpent.resumed (hS : S'.sha256 = S.sha256)
    (hst : Untouched r gone st) (h : PlaceSpent S r gone q)
    (hstep : resumeNext S' st q = some (q', st')) :
    Untouched r gone st' ∧ PlaceSpent S r gone q' := by
  have htrans : ∀ status, Untouched r gone (st.transition status) :=
    fun status => hst.after fun _ => Iff.rfl
  cases q with
  | getting =>
    cases hstep
    refine ⟨hst, ?_⟩
    rcases checked_cases S' st with
      ⟨out, hc, -⟩ | hc | ⟨dsl, context, hc, r', hr', -, hdsl, hhash, -⟩
    · rw [hc]
      trivial
    · rw [hc]
      trivial
    · rw [hc]
      obtain ⟨r1, hr1, hjson1, hhash1⟩ := hst.run
      rw [hr'] at hr1
      cases hr1
      rw [hjson1] at hdsl
      rw [hhash1, hS] at hhash
      exact ⟨hdsl, hhash⟩
  | failing =>
    cases hstep
    exact ⟨htrans .failed, trivial⟩
  | listing dsl context =>
    cases hstep
    refine ⟨hst, h, hst.counted, ?_⟩
    intro y hy
    exact (hst.counted y.nodeId).1 (mem_counted_of_waiting hy)
  | marking dsl context todo done =>
    obtain ⟨⟨hdsl, hhash⟩, hdone, htodo⟩ := h
    cases todo with
    | nil =>
      cases hstep
      exact ⟨htrans .running, resting_reentered hnot hdsl hhash hdone S'⟩
    | cons y todo =>
      cases hstep
      exact ⟨hst.mark (htodo y mem_cons_self), ⟨hdsl, hhash⟩, hdone,
        fun z hz => htodo z (mem_cons_of_mem y hz)⟩
  | executing S1 x | refused out | escaped => cases hstep

lemma PlaceSpent.step (hS : S'.sha256 = S.sha256)
    (hst : Untouched r gone st) (h : PlaceSpent S r gone q)
    (hstep : callStep S' (q, st) e = some (q', st')) :
    Untouched r gone st' ∧ PlaceSpent S r gone q' := by
  cases e with
  | returned => exact h.resumed hnot hS hst hstep
  | thrown =>
    obtain ⟨-, -, heq⟩ := Option.map_eq_some_iff.1 hstep
    cases heq
    exact ⟨hst, trivial⟩
  | exec e =>
    cases q with
    | executing S1 x =>
      obtain ⟨⟨x', st1⟩, ht, heq⟩ := Option.map_eq_some_iff.1 hstep
      cases heq
      have hrest : Resting S1 x := h
      refine ⟨?_, hrest.step ht⟩
      have hruns := hrest.nodeRuns ht
      obtain ⟨-, rfl⟩ := moves_of_step ht
      refine hst.after fun id => ?_
      rw [mem_counted, mem_counted, hruns]
    | _ => cases hstep

end

structure Spent (S : Setup) (r : RunRecord) (gone : List String) (s : Race) : Prop where
  store : Untouched r gone s.store
  calls : ∀ (i : Nat) (c : Setup × Resuming), s.calls[i]? = some c →
    c.1.sha256 = S.sha256 ∧ PlaceSpent S r gone c.2
  begun : s.begun = []

lemma Spent.step {s t : Race} (hnot : ¬ CanRun S r gone) (h : Spent S r gone s)
    (hst : RaceMoves s t) : Spent S r gone t := by
  obtain ⟨i, e, hstep⟩ := hst
  obtain ⟨S0, q, q', st', hc, hcall, hcalls, hstore, hbegun⟩ := raceStep_cases hstep
  obtain ⟨hS, hq⟩ := h.calls i (S0, q) hc
  obtain ⟨hst', hq'⟩ := hq.step hnot hS h.store hcall
  refine ⟨?_, ?_, ?_⟩
  · rw [hstore]
    exact hst'
  · intro j c hj
    rw [hcalls] at hj
    rcases getElem?_set_cases hj with ⟨rfl, rfl⟩ | ⟨-, hj⟩
    · exact ⟨hS, hq'⟩
    · exact h.calls j c hj
  · rw [hbegun, hq.shut.begins e, h.begun]
    rfl

end

/-! ## two calls that both run what is left -/

section
variable {s : Race} {i : Nat} {S S' : Setup} {q q' : Resuming} {st st' : Store} {id : String}
  {context : Json} {done rest : List String} {dsl : WorkflowDsl}

lemma race_of_call (hi : s.calls[i]? = some (S, q))
    (h : Reach (CallMoves S) (q, s.store) (q', st')) :
    ∃ t, Reach RaceMoves s t ∧ t.calls = s.calls.set i (S, q') ∧ t.store = st' ∧
      ∀ p ∈ s.begun, p ∈ t.begun := by
  have hinv := h.inv (I := fun u : Resuming × Store => ∃ t, Reach RaceMoves s t ∧
    t.calls = s.calls.set i (S, u.1) ∧ t.store = u.2 ∧ ∀ p ∈ s.begun, p ∈ t.begun)
  refine hinv ?_ ⟨s, Reach.refl s, (set_of_getElem? hi).symm, rfl, fun _ hp => hp⟩
  rintro ⟨q1, st1⟩ ⟨q2, st2⟩ ⟨t, hreach, hcalls, hstore, hbegun⟩ ⟨e, hstep⟩
  have hti : t.calls[i]? = some (S, q1) := by
    rw [hcalls]
    exact getElem?_set_of_some hi
  have hcall : callStep S (q1, t.store) e = some (q2, st2) := by
    rw [hstore]
    exact hstep
  refine ⟨_, hreach.tail (raceStep_of_call hti hcall), ?_, rfl, ?_⟩
  · rw [hcalls, set_set]
  · intro p hp
    exact mem_append_right _ (hbegun p hp)

lemma race_begins {x : Exec} {n : NodeSpec} (hi : s.calls[i]? = some (S, .executing S' x))
    (hr : x.running = [⟨n, .start⟩]) (hc : x.flags.cancelled = false) :
    ∃ t, Reach RaceMoves s t ∧ (i, n.id) ∈ t.begun ∧ (∀ p ∈ s.begun, p ∈ t.begun) ∧
      ∀ j, j ≠ i → t.calls[j]? = s.calls[j]? := by
  have hstep : (callStep S (.executing S' x, s.store) (.exec (.node 0 .quiet))).isSome := by
    simp only [callStep, step, Event.answer, callOf, hr, getElem?_cons_zero, Option.bind_some,
      asks, Answer.fits, perform]
    rfl
  obtain ⟨u, hu⟩ := Option.isSome_iff_exists.1 hstep
  have hbegins : (Resuming.executing S' x).begins (.exec (.node 0 .quiet)) = some n.id := by
    simp only [Resuming.begins, hr, getElem?_cons_zero, Option.bind_some, hc, and_self, if_true]
  refine ⟨_, (Reach.refl s).tail (raceStep_of_call hi hu), ?_, ?_, ?_⟩
  · rw [hbegins]
    exact mem_cons_self
  · intro p hp
    exact mem_append_right _ hp
  · intro j hj
    exact getElem?_set_ne (hj ·.symm)

lemma reach_started (hpre : preflight (reentered S dsl context done) = .creating)
    (hroots : roots (trim dsl done) = id :: rest) (todo : List NodeRun) (st : Store) :
    ∃ x st', Reach (CallMoves S) (.marking dsl context todo done, st)
        (.executing (reentered S dsl context done) x, st') ∧
      x.running = [⟨byId (trim dsl done) id, .start⟩] ∧ x.flags.cancelled = false := by
  obtain ⟨st1, -, hmarked⟩ := reach_reentered (S := S) dsl context done todo st
  obtain ⟨t, ht, hrunning, hc⟩ := reach_first_node hpre hroots (st1.transition .running)
  refine ⟨t.1, t.2, hmarked.trans ?_, hrunning, hc⟩
  refine ht.inv (I := fun u : Exec × Store => Reach (CallMoves S)
    (entering (reentered S dsl context done), st1.transition .running)
    (.executing (reentered S dsl context done) u.1, u.2)) ?_ (Reach.refl _)
  rintro u v hu ⟨e, -, hstep⟩
  refine hu.tail ⟨.exec e, ?_⟩
  simp only [callStep, hstep, Option.map_some]

lemma race_starts {todo : List NodeRun}
    (hi : s.calls[i]? = some (S, .marking dsl context todo done))
    (hpre : preflight (reentered S dsl context done) = .creating)
    (hroots : roots (trim dsl done) = id :: rest) :
    ∃ t, Reach RaceMoves s t ∧ (i, id) ∈ t.begun ∧ (∀ p ∈ s.begun, p ∈ t.begun) ∧
      ∀ j, j ≠ i → t.calls[j]? = s.calls[j]? := by
  have hid : (byId (trim dsl done) id).id = id := by
    have hmem : id ∈ roots (trim dsl done) := by
      rw [hroots]
      exact mem_cons_self
    have hids : id ∈ ids (reentered S dsl context done).dsl :=
      mem_dedup.1 (mem_filter.1 hmem).1
    exact (byId_spec hids).1
  obtain ⟨x, st', hreach, hrunning, hc⟩ := reach_started hpre hroots todo s.store
  obtain ⟨t, ht, hcalls, -, hbegun⟩ := race_of_call hi hreach
  have hti : t.calls[i]? = some (S, .executing (reentered S dsl context done) x) := by
    rw [hcalls]
    exact getElem?_set_of_some hi
  obtain ⟨u, hu, hnew, hold, hothers⟩ := race_begins hti hrunning hc
  rw [hid] at hnew
  refine ⟨u, ht.trans hu, hnew, fun p hp => hold p (hbegun p hp), fun j hj => ?_⟩
  rw [hothers j hj, hcalls]
  exact getElem?_set_ne (hj ·.symm)

end

section
variable {S : Setup} {st : Store} {r : RunRecord} {admissions : List Admission}

lemma getElem?_racing {i : Nat} {a : Admission} (h : admissions[i]? = some a) :
    (racing S st admissions).calls[i]? = some (S.under a, .getting) := by
  simp only [racing, getElem?_map, h, Option.map_some]

/-- two calls that are let in read the same store, and both begin the same node -/
lemma both_begin {dsl : WorkflowDsl} {id : String} {rest : List String} {i j : Nat}
    {a b : Admission} (hrun : st.run = some r) (hpaused : r.status = .waitingForApproval)
    (hdsl : fromJson r.dslJson = some dsl) (hhash : canonicalHash S.sha256 dsl = r.dslHash)
    (hcycle : validateNoCycle (trim dsl st.counted))
    (hbypass : validateNoSandboxBypass none (trim dsl st.counted) = [])
    (hroots : roots (trim dsl st.counted) = id :: rest) (hij : i ≠ j)
    (ha : admissions[i]? = some a) (hb : admissions[j]? = some b)
    (hadm : (S.under a).Admits) (hbdm : (S.under b).Admits) :
    ∃ s, Reach RaceMoves (racing S st admissions) s ∧ (i, id) ∈ s.begun ∧ (j, id) ∈ s.begun := by
  have hpre : ∀ a : Admission, (S.under a).Admits →
      preflight (reentered (S.under a) dsl r.contextJson st.counted) = .creating := by
    intro a hadm
    exact preflight_eq_creating_iff.2 ⟨hadm.1, hadm.2, hcycle, hbypass⟩
  have hread : ∀ a : Admission, Reach (CallMoves (S.under a)) (.getting, st)
      (.marking dsl r.contextJson st.waiting st.counted, st) :=
    fun _ => reach_marking hrun hpaused hdsl hhash
  -- both calls read the store before either writes
  obtain ⟨s1, hs1, hcalls1, hstore1, -⟩ := race_of_call (getElem?_racing ha) (hread a)
  have hj1 : s1.calls[j]? = some (S.under b, .getting) := by
    rw [hcalls1, getElem?_set_ne hij]
    exact getElem?_racing hb
  have hread1 : Reach (CallMoves (S.under b)) (.getting, s1.store)
      (.marking dsl r.contextJson st.waiting st.counted, st) := by
    rw [hstore1]
    exact hread b
  obtain ⟨s2, hs2, hcalls2, -, -⟩ := race_of_call hj1 hread1
  have hi2 : s2.calls[i]? = some (S.under a, .marking dsl r.contextJson st.waiting st.counted) := by
    rw [hcalls2, getElem?_set_ne hij.symm, hcalls1]
    exact getElem?_set_of_some (getElem?_racing ha)
  obtain ⟨s3, hs3, hnew3, -, hothers3⟩ := race_starts hi2 (hpre a hadm) hroots
  have hj3 : s3.calls[j]? = some (S.under b, .marking dsl r.contextJson st.waiting st.counted) := by
    rw [hothers3 j hij.symm, hcalls2]
    exact getElem?_set_of_some hj1
  obtain ⟨s4, hs4, hnew4, hold4, -⟩ := race_starts hj3 (hpre b hbdm) hroots
  exact ⟨s4, ((hs1.trans hs2).trans hs3).trans hs4, hold4 _ hnew3, hnew4⟩

lemma spent_racing (hrun : st.run = some r) : Spent S r st.counted (racing S st admissions) := by
  refine ⟨⟨⟨r, hrun, rfl, rfl⟩, fun _ => Iff.rfl⟩, ?_, rfl⟩
  intro i c hc
  obtain ⟨a, -, rfl⟩ := Option.map_eq_some_iff.1 (getElem?_map .. ▸ hc)
  exact ⟨rfl, trivial⟩

end

/-- for every paused run and any number of `resume` calls: in every interleaving each node not done
is executed by at most one of them, exactly when nothing is left that `execute` would run, or its
admission lets at most one in -/
theorem resume_once_iff (S : Setup) {st : Store} {r : RunRecord} (hrun : st.run = some r)
    (hpaused : r.status = .waitingForApproval) (admissions : List Admission) :
    (∀ s, Reach RaceMoves (racing S st admissions) s → ∀ id, ¬ Done st id →
      ∀ i j, (i, id) ∈ s.begun → (j, id) ∈ s.begun → i = j) ↔
    (CanRun S r st.counted → ∀ (i j : Nat) (a b : Admission), admissions[i]? = some a →
      admissions[j]? = some b → (S.under a).Admits → (S.under b).Admits → i = j) := by
  constructor
  · rintro h ⟨dsl, hdsl, hhash, hcycle, hbypass, hne⟩ i j a b ha hb hadm hbdm
    by_contra hij
    obtain ⟨id, rest, hroots⟩ := exists_cons_of_ne_nil (roots_ne_nil _ hcycle hne)
    obtain ⟨s, hs, hi, hj⟩ := both_begin hrun hpaused hdsl hhash hcycle hbypass hroots hij ha hb
      hadm hbdm
    refine hij (h s hs id ?_ i j hi hj)
    have hmem : id ∈ roots (trim dsl st.counted) := by
      rw [hroots]
      exact mem_cons_self
    have hkept := notMem_of_mem_trim (mem_dedup.1 (mem_filter.1 hmem).1)
    rintro ⟨y, hy, rfl, hset⟩
    refine hkept (mem_counted.2 ⟨y, hy, rfl, ?_⟩)
    rcases hset with hset | hset <;> simp [NodeRun.counts, hset]
  · intro h s hs id _ i j hi hj
    by_cases hcan : CanRun S r st.counted
    · have hgated : Gated S admissions s :=
        Reach.inv (fun _ _ hg hst => hg.step hst) hs (gated_racing S st admissions)
      obtain ⟨a, ha, hadm⟩ := hgated.begun i id hi
      obtain ⟨b, hb, hbdm⟩ := hgated.begun j id hj
      exact h hcan i j a b ha hb hadm hbdm
    · have hspent : Spent S r st.counted s :=
        Reach.inv (fun _ _ hg hst => hg.step hcan hst) hs (spent_racing hrun)
      rw [hspent.begun] at hi
      cases hi

/-! ## two runs -/

def waitingStore : Store where
  run := some { runRecord oneApproval with status := .waitingForApproval }
  nodeRuns := [⟨"a", 1, .waitingForApproval, "", ""⟩]

/-- the second call finds no room -/
theorem resume_once_full :
    waitingStore.run.map (·.status) = some .waitingForApproval ∧
      ∀ s, Reach RaceMoves (racing oneApproval waitingStore [{}, { activeRuns := 17 }]) s →
        ∀ id, ¬ Done waitingStore id → ∀ i j, (i, id) ∈ s.begun → (j, id) ∈ s.begun → i = j := by
  refine ⟨rfl, (resume_once_iff oneApproval rfl rfl [{}, { activeRuns := 17 }]).2 ?_⟩
  have hfirst : ∀ (i : Nat) (a : Admission), [{}, { activeRuns := 17 }][i]? = some a →
      (oneApproval.under a).Admits → i = 0 := by
    intro i a ha hadm
    match i with
    | 0 => rfl
    | 1 =>
      cases ha
      exact absurd hadm.1 (by decide)
    | i + 2 => cases ha
  intro _ i j a b ha hb hadm hbdm
  rw [hfirst i a ha hadm, hfirst j b hb hbdm]

/-- two calls get the run while it waits for approval, and both run the tool -/
theorem resumed_twice :
    ∃ s, Reach RaceMoves (racing oneApproval waitingStore [{}, {}]) s ∧
      ¬ Done waitingStore "x" ∧ (0, "x") ∈ s.begun ∧ (1, "x") ∈ s.begun := by
  have hnot : ¬ Done waitingStore "x" := by
    rintro ⟨y, hy, hid, -⟩
    rw [mem_singleton.1 hy] at hid
    exact absurd hid (by decide)
  have hadm : (oneApproval.under {}).Admits := ⟨by decide, rfl⟩
  have hboth : ∃ s, Reach RaceMoves (racing oneApproval waitingStore [{}, {}]) s ∧
      (0, "x") ∈ s.begun ∧ (1, "x") ∈ s.begun :=
    both_begin rfl rfl rfl rfl rfl rfl rfl Nat.zero_ne_one rfl rfl hadm hadm
  obtain ⟨s, hs, hfirst, hsecond⟩ := hboth
  exact ⟨s, hs, hnot, hfirst, hsecond⟩

end AegisGate.Workflow
