import AegisGate.Workflow.Outcome

/-!
# A run from its `execute` through its `resume` calls

One `execute` of a workflow on a new run id, and then one `resume` after the other, each when the call
before has returned.  Store, callback and tools do not throw.

* `sessionStep`  a step of the current call, or the next `resume`;
* `begun`  the nodes whose body has begun in the current call;
* `SessionOk`  the invariant: `Account` and `Stage` of the current `execute`, with what `resume`
  left out of it done already.

A call that is not let in returns `ok = false`, whatever is done (`refused_when_done`): the result
tells that every node is done only of the calls that are.
-/

namespace AegisGate.Workflow

open List Run

/-! ## sessions -/

structure Session where
  setup : Setup
  place : Resuming
  store : Store := {}
  /-- the bodies that began in the current call -/
  begun : List String := []

inductive SessionEvent where
  | call (e : CallEvent)
  | again (activeRuns : Int) (autonomyEnabled : Bool)

def Session.start (S : Setup) : Session := { setup := S, place := entering S }

def sessionStep (s : Session) : SessionEvent → Option Session
  | .call e => (callStep s.setup (s.place, s.store) e).map (fun t =>
      { s with place := t.1, store := t.2, begun := (s.place.begins e).toList ++ s.begun })
  | .again activeRuns autonomyEnabled =>
    if s.place.out.isSome then
      some { setup := { s.setup with activeRuns, autonomyEnabled }
             place := .getting, store := s.store }
    else none

/-- the calls of `resume` itself return, those of `execute` have the answers of the environment -/
def Resuming.Allows (env : Env) : Resuming → CallEvent → Prop
  | _, .returned => True
  | .executing S x, .exec e => env.Allows S x e
  | _, _ => False

def CallStep (env : Env) (S : Setup) (s t : Resuming × Store) : Prop :=
  ∃ e, s.1.Allows env e ∧ callStep S s e = some t

def Session.Allows (env : Env) (s : Session) : SessionEvent → Prop
  | .call e => s.place.Allows env e
  | .again _ _ => True

def SessionStep (env : Env) (s t : Session) : Prop :=
  ∃ ev, s.Allows env ev ∧ sessionStep s ev = some t

def Resuming.Admitted : Resuming → Prop
  | .executing S _ => S.Admits
  | _ => False

/-! ## the invariant -/

def PlaceSound (D : WorkflowDsl) (st : Store) (begun : List String) : Resuming → Prop
  | .getting => True
  | .failing => True
  | .listing dsl _ => dsl.nodes = D.nodes ∧ st.run.isSome
  | .marking dsl _ todo done => dsl.nodes = D.nodes ∧ st.run.isSome ∧
      (∀ id ∈ done, Done st id ∨ ∃ r ∈ todo, r.nodeId = id) ∧
      (∀ r ∈ todo, r.nodeId ∈ done) ∧ ∀ id, Done st id → id ∈ done
  | .executing S x => (S.dsl = D ∨ st.run.isSome) ∧
      (∃ gone, (∀ id ∈ gone, Done st id) ∧ S.dsl.nodes = (trim D gone).nodes) ∧
      (∃ done stalled, Account S x st begun done stalled) ∧ Stage S x st
  | .refused out => out.ok = false
  | .escaped => False

structure SessionOk (D : WorkflowDsl) (s : Session) : Prop where
  stored : ∀ r, s.store.run = some r → r.dslJson = toJson D
  place : PlaceSound D s.store s.begun s.place
  idle : (∀ S x, s.place ≠ .executing S x) → s.begun = []

section
variable {D : WorkflowDsl} {S : Setup} {st : Store} {gone : List String} {id : String}
  {dsl : WorkflowDsl} {context : Json} {done : List String}

lemma mem_ids_trim : id ∈ ids (trim D gone) ↔ id ∈ ids D ∧ id ∉ gone := by
  simp only [ids, trim, map_map, mem_map, mem_filter, decide_eq_true_eq]
  constructor
  · rintro ⟨n, ⟨hn, hnot⟩, rfl⟩
    exact ⟨⟨n, hn, rfl⟩, hnot⟩
  · rintro ⟨⟨n, hn, rfl⟩, hnot⟩
    exact ⟨n, ⟨hn, hnot⟩, rfl⟩

lemma done_all_iff (hgone : ∀ id ∈ gone, Done st id) (hnodes : S.dsl.nodes = (trim D gone).nodes) :
    (∀ id ∈ ids S.dsl, Done st id) ↔ ∀ n ∈ D.nodes, Done st n.id := by
  rw [(graph_congr hnodes).1]
  constructor
  · intro h n hn
    by_cases hg : n.id ∈ gone
    · exact hgone n.id hg
    · exact h n.id (mem_ids_trim.2 ⟨mem_map_of_mem hn, hg⟩)
  · intro h id hid
    obtain ⟨n, hn, rfl⟩ := mem_map.1 (mem_ids_trim.1 hid).1
    exact h n hn

lemma stored_after {c : Option Call} {a : Answer}
    (hstored : ∀ r, st.run = some r → r.dslJson = toJson D)
    (hcreate : ∀ r, c = some (.createRun r) → st.run = none → r.dslJson = toJson D) :
    ∀ r, (st.after c a).run = some r → r.dslJson = toJson D := by
  intro r hr
  rcases run_after hr with ⟨r', hr', heq, -⟩ | ⟨hnone, hc⟩
  · rw [heq]
    exact hstored r' hr'
  · exact hcreate r hc hnone

lemma placeSound_checked (hstored : ∀ r, st.run = some r → r.dslJson = toJson D) :
    PlaceSound D st [] (checked S st.run) := by
  rcases checked_cases S st with ⟨out, hc, hok⟩ | hc | ⟨dsl, context, hc, r, hrun, -, hdsl, -⟩
  · rw [hc]
    exact hok
  · rw [hc]
    trivial
  · rw [hc]
    rw [hstored r hrun] at hdsl
    exact ⟨nodes_of_fromJson hdsl, by rw [hrun]; rfl⟩

lemma placeSound_listed (hnodes : dsl.nodes = D.nodes) (hrun : st.run.isSome) :
    PlaceSound D st [] (.marking dsl context st.waiting st.counted) := by
  refine ⟨hnodes, hrun, ?_, ?_, ?_⟩
  · intro id hid
    obtain ⟨r, hr, rfl⟩ := mem_map.1 hid
    obtain ⟨hmem, hcounts⟩ := mem_filter.1 hr
    simp only [NodeRun.counts, decide_eq_true_eq] at hcounts
    rcases hcounts with hs | hs | hs
    · exact .inl ⟨r, hmem, rfl, .inl hs⟩
    · exact .inl ⟨r, hmem, rfl, .inr hs⟩
    · exact .inr ⟨r, mem_filter.2 ⟨hmem, by simpa using hs⟩, rfl⟩
  · intro r hr
    obtain ⟨hmem, hs⟩ := mem_filter.1 hr
    refine mem_map.2 ⟨r, mem_filter.2 ⟨hmem, ?_⟩, rfl⟩
    simp [NodeRun.counts, hs]
  · rintro id ⟨r, hmem, rfl, hs⟩
    refine mem_map.2 ⟨r, mem_filter.2 ⟨hmem, ?_⟩, rfl⟩
    rcases hs with hs | hs <;> simp [NodeRun.counts, hs]

lemma placeSound_marked {r : NodeRun} {todo : List NodeRun}
    (h : PlaceSound D st [] (.marking dsl context (r :: todo) done)) :
    PlaceSound D (st.after (some (.upsertNodeRun { r with status := .succeeded })) .returned) []
      (.marking dsl context todo done) := by
  obtain ⟨hnodes, hrun, hdone, htodo, honly⟩ := h
  have hset : ({ r with status := .succeeded } : NodeRun).settled := .inl rfl
  refine ⟨hnodes, hrun, ?_, fun y hy => htodo y (mem_cons_of_mem r hy), ?_⟩
  · intro id hid
    rw [done_upsert fun _ => hset]
    rcases hdone id hid with hd | ⟨y, hy, rfl⟩
    · exact .inl (.inl hd)
    · rcases mem_cons.1 hy with rfl | hy
      · exact .inl (.inr ⟨rfl, hset⟩)
      · exact .inr ⟨y, hy, rfl⟩
  · intro id hid
    rw [done_upsert fun _ => hset] at hid
    rcases hid with hd | ⟨rfl, -⟩
    · exact honly id hd
    · exact htodo r mem_cons_self

lemma placeSound_entering (h : PlaceSound D st [] (.marking dsl context [] done)) :
    PlaceSound D (st.transition .running) [] (entering (reentered S dsl context done)) := by
  obtain ⟨hnodes, hrun, hdone, -, honly⟩ := h
  have hgone : ∀ id ∈ done, Done st id := by
    intro id hid
    rcases hdone id hid with hd | ⟨r, hr, -⟩
    · exact hd
    · cases hr
  have htrim : (reentered S dsl context done).dsl.nodes = (trim D done).nodes := by
    show (trim dsl done).nodes = (trim D done).nodes
    unfold trim
    rw [hnodes]
  refine ⟨.inr ?_, ⟨done, hgone, htrim⟩, ⟨[], [], account_init _ _ ?_⟩, stage_init _ _⟩
  · rw [transition_run, Option.isSome_map]
    exact hrun
  · intro id hid hd
    exact notMem_of_mem_trim hid (honly id hd)

variable {env : Env} {begun : List String} {x : Exec} {q q' : Resuming} {st' : Store}

lemma placeSound_resumed (hstored : ∀ r, st.run = some r → r.dslJson = toJson D)
    (h : PlaceSound D st [] q) (hstep : resumeNext S st q = some (q', st')) :
    (∀ r, st'.run = some r → r.dslJson = toJson D) ∧ PlaceSound D st' [] q' := by
  cases q with
  | getting =>
    cases hstep
    exact ⟨hstored, placeSound_checked hstored⟩
  | failing =>
    cases hstep
    exact ⟨stored_after hstored nofun, rfl⟩
  | listing dsl context =>
    cases hstep
    exact ⟨hstored, placeSound_listed h.1 h.2⟩
  | marking dsl context todo done =>
    cases todo with
    | nil =>
      cases hstep
      exact ⟨stored_after hstored nofun, placeSound_entering h⟩
    | cons r todo =>
      cases hstep
      exact ⟨stored_after hstored nofun, placeSound_marked h⟩
  | executing S' x | refused out | escaped => cases hstep

lemma placeSound_executed {e : Event} {x' : Exec} (henv : env.Respects calm)
    (hno : ∀ n ∈ D.nodes, CanThrow calm n = false)
    (hstored : ∀ r, st.run = some r → r.dslJson = toJson D)
    (h : PlaceSound D st begun (.executing S x)) (hallow : env.Allows S x e)
    (hstep : step S (x, st) e = some (x', st')) : (∀ r, st'.run = some r → r.dslJson = toJson D) ∧
      PlaceSound D st' (((Resuming.executing S x).begins (.exec e)).toList ++ begun)
        (.executing S x') := by
  obtain ⟨hrun, ⟨gone, hgone, hnodes⟩, ⟨done, stalled, hacc⟩, hstage⟩ := h
  have hno' : ∀ n ∈ S.dsl.nodes, CanThrow calm n = false := by
    intro n hn
    rw [hnodes] at hn
    obtain ⟨m, hm, rfl⟩ := mem_map.1 hn
    exact hno m (mem_filter.1 hm).1
  obtain ⟨-, hst'⟩ := moves_of_step hstep
  refine ⟨?_, ?_, ⟨gone, fun id hid => hacc.mono hstep (hgone id hid), hnodes⟩,
    hacc.step henv hno' hallow hstep, hstage.step henv hacc hallow hstep⟩
  · rw [hst']
    refine stored_after hstored fun r hr hnone => ?_
    rcases hrun with hD | hsome
    · rw [(callOf_createRun hr).1, ← hD]
      rfl
    · rw [hnone] at hsome
      cases hsome
  · rw [hst']
    exact hrun.imp_right isSome_run_after

end

section
variable {D : WorkflowDsl} {s t : Session} {env : Env}

lemma SessionOk.step (henv : env.Respects calm) (hno : ∀ n ∈ D.nodes, CanThrow calm n = false)
    (h : SessionOk D s) (hst : SessionStep env s t) : SessionOk D t := by
  obtain ⟨S, q, st, begun⟩ := s
  obtain ⟨hstored, hplace, hidle⟩ := h
  obtain ⟨ev, hallow, hev⟩ := hst
  cases ev with
  | again activeRuns autonomyEnabled =>
    simp only [sessionStep] at hev
    split at hev
    · cases hev
      exact ⟨hstored, trivial, fun _ => rfl⟩
    · cases hev
  | call e =>
    obtain ⟨⟨q', st'⟩, hstep, rfl⟩ := Option.map_eq_some_iff.1 hev
    cases e with
    | thrown => cases q <;> exact absurd hallow id
    | returned =>
      have hbegun : begun = [] := by
        apply hidle
        rintro S' x rfl
        cases hstep
      subst hbegun
      obtain ⟨hstored', hplace'⟩ := placeSound_resumed hstored hplace hstep
      have hbegins : q.begins .returned = none := by cases q <;> rfl
      refine ⟨hstored', ?_, fun _ => ?_⟩
      · simpa [hbegins] using hplace'
      · simp [hbegins]
    | exec e =>
      cases q with
      | executing S' x =>
        obtain ⟨⟨x', st''⟩, hx, heq⟩ := Option.map_eq_some_iff.1 hstep
        cases heq
        obtain ⟨hstored', hplace'⟩ := placeSound_executed henv hno hstored hplace hallow hx
        exact ⟨hstored', hplace', fun hne => absurd rfl (hne S' x')⟩
      | _ => cases hstep

lemma SessionOk.start (S : Setup) : SessionOk S.dsl (Session.start S) := by
  have hnone : ∀ id ∈ ids S.dsl, ¬ Done {} id := by
    rintro id - ⟨r, hr, -⟩
    cases hr
  refine ⟨?_, ?_, fun hne => absurd rfl (hne S _)⟩
  · exact nofun
  · exact ⟨.inl rfl, ⟨[], (by simp), trim_nil.symm⟩, ⟨[], [], account_init S {} hnone⟩,
      stage_init S {}⟩

/-! ## what follows at every state -/

lemma SessionOk.begins {e : CallEvent} {id : String} (h : SessionOk D s)
    (hb : s.place.begins e = some id) : (∀ d ∈ deps D id, Done s.store d) ∧ ¬ Done s.store id := by
  obtain ⟨S, q, st, begun⟩ := s
  obtain ⟨-, hplace, -⟩ := h
  cases q with
  | executing S' x =>
    cases e with
    | exec e =>
      cases e with
      | node i a =>
        obtain ⟨job, hjob, hif⟩ := Option.bind_eq_some_iff.1 hb
        split at hif
        · next hstart =>
          cases hif
          obtain ⟨l, r, hr, rfl⟩ := Position.split_of_getElem? hjob
          obtain ⟨-, ⟨gone, hgone, hnodes⟩, ⟨done, stalled, hacc⟩, -⟩ := hplace
          obtain ⟨hids, hdeps, -⟩ := graph_congr hnodes
          have hmem : job ∈ x.running := by simp [hr]
          have hs := (hacc.books.waiting (.inl (by simp [hr]))).2
          have hready := hs.frontier.ready job.node.id (by simp [hr])
          have hkept : job.node.id ∉ gone := by
            have hid := hacc.mem_ids hmem
            rw [hids] at hid
            exact notMem_of_mem_trim hid
          refine ⟨fun d hd => ?_, hacc.undone hr (by rw [hstart.1]; simp)⟩
          rcases mem_deps_trim hkept hd with hd | hd
          · exact hgone d hd
          · rw [← hdeps] at hd
            exact hacc.advanced d (Topo.remaining_eq_zero.1 hready d hd)
        · cases hif
      | _ => cases hb
    | _ => cases hb
  | _ => cases hb

lemma SessionOk.once (h : SessionOk D s) : s.begun.Nodup := by
  by_cases hex : ∃ S x, s.place = .executing S x
  · obtain ⟨S, x, hp⟩ := hex
    have hplace := h.place
    rw [hp] at hplace
    obtain ⟨-, -, ⟨done, stalled, hacc⟩, -⟩ := hplace
    exact hacc.once
  · rw [h.idle fun S x hp => hex ⟨S, x, hp⟩]
    exact nodup_nil

/-- the result of a call says whether every node is done, if the call was let in -/
lemma SessionOk.ok_iff {out : WorkflowExecutionResult} (h : SessionOk D s)
    (hout : s.place.out = some out) :
    out.ok ↔ s.place.Admitted ∧ ∀ n ∈ D.nodes, Done s.store n.id := by
  obtain ⟨S, q, st, begun⟩ := s
  obtain ⟨-, hplace, -⟩ := h
  cases q with
  | refused out' =>
    cases hout
    have hok : out.ok = false := hplace
    simp [hok, Resuming.Admitted]
  | executing S' x =>
    obtain ⟨-, ⟨gone, hgone, hnodes⟩, -, hstage⟩ := hplace
    have hp : x.phase = .returned out := by
      simp only [Resuming.out] at hout
      split at hout
      · next out' hp =>
        cases hout
        exact hp
      · cases hout
    rw [hstage.returned out hp, done_all_iff hgone hnodes]
    rfl
  | _ => cases hout

/-! ## every call returns -/

lemma halts_executing (env : Env) (S0 S : Setup) (s : Exec × Store) :
    Halts (CallStep env S0) (.executing S s.1, s.2) := by
  induction halts env S s with
  | intro s _ ih =>
    refine Acc.intro _ ?_
    rintro ⟨q, st⟩ ⟨e, hallow, hstep⟩
    cases e with
    | returned | thrown => cases hstep
    | exec e =>
      obtain ⟨t, ht, heq⟩ := Option.map_eq_some_iff.1 hstep
      cases heq
      exact ih t ⟨e, hallow, ht⟩

lemma halts_resumed {S : Setup} {q : Resuming} {st : Store} (hq : ∀ S x, q ≠ .executing S x)
    (h : ∀ t, resumeNext S st q = some t → Halts (CallStep env S) t) :
    Halts (CallStep env S) (q, st) := by
  refine Acc.intro _ ?_
  rintro t ⟨e, hallow, hstep⟩
  cases e with
  | returned => exact h t hstep
  | thrown => cases q <;> exact absurd hallow id
  | exec e =>
    cases q with
    | executing S' x => exact absurd rfl (hq S' x)
    | _ => cases hstep

lemma halts_call (env : Env) (S : Setup) (q : Resuming) (st : Store) :
    Halts (CallStep env S) (q, st) := by
  have hrefused : ∀ out st, Halts (CallStep env S) (.refused out, st) := by
    intro out st
    exact halts_resumed (by simp) (fun t ht => by cases ht)
  have hfailing : ∀ st, Halts (CallStep env S) (.failing, st) := by
    intro st
    refine halts_resumed (by simp) fun t ht => ?_
    cases ht
    exact hrefused _ _
  have hmarking : ∀ dsl context done todo st,
      Halts (CallStep env S) (.marking dsl context todo done, st) := by
    intro dsl context done todo
    induction todo with
    | nil =>
      intro st
      refine halts_resumed (by simp) fun t ht => ?_
      cases ht
      exact halts_executing env S _ (_, _)
    | cons r todo ih =>
      intro st
      refine halts_resumed (by simp) fun t ht => ?_
      cases ht
      exact ih _
  have hlisting : ∀ dsl context st, Halts (CallStep env S) (.listing dsl context, st) := by
    intro dsl context st
    refine halts_resumed (by simp) fun t ht => ?_
    cases ht
    exact hmarking _ _ _ _ _
  cases q with
  | getting =>
    refine halts_resumed (by simp) fun t ht => ?_
    cases ht
    rcases checked_cases S st with ⟨out, hc, -⟩ | hc | ⟨dsl, context, hc, -⟩
    · rw [hc]
      exact hrefused out st
    · rw [hc]
      exact hfailing st
    · rw [hc]
      exact hlisting dsl context st
  | failing => exact hfailing st
  | listing dsl context => exact hlisting dsl context st
  | marking dsl context todo done => exact hmarking dsl context done todo st
  | executing S' x => exact halts_executing env S S' (x, st)
  | refused out => exact hrefused out st
  | escaped => exact halts_resumed (by simp) (fun t ht => by cases ht)

lemma SessionOk.returned (h : SessionOk D s)
    (hstuck : Stuck (CallStep env s.setup) (s.place, s.store)) : ∃ out, s.place.out = some out := by
  obtain ⟨S, q, st, begun⟩ := s
  obtain ⟨-, hplace, -⟩ := h
  cases q with
  | executing S' x =>
    obtain ⟨-, -, ⟨done, stalled, hacc⟩, hstage⟩ := hplace
    cases hp : x.phase with
    | returned out => exact ⟨out, by simp only [Resuming.out, hp]⟩
    | escaped => exact absurd hp hstage.caught
    | _ =>
      have hstep : ∃ t, Step env S' (x, st) t := progress env hacc.books (by rw [hp]; rfl)
      obtain ⟨t, e, hallow, ht⟩ := hstep
      refine absurd ⟨.exec e, hallow, ?_⟩ (hstuck (.executing S' t.1, t.2))
      simp only [callStep, ht, Option.map_some]
  | refused out => exact ⟨out, rfl⟩
  | escaped => exact absurd hplace id
  | marking dsl context todo done =>
    cases todo with
    | nil | cons r todo => exact absurd ⟨.returned, trivial, rfl⟩ (hstuck _)
  | _ => exact absurd ⟨.returned, trivial, rfl⟩ (hstuck _)

end

lemma canThrow_calm {n : NodeSpec}
    (h : n.type = .tool → (n.arguments.isNull || n.arguments.isObject)) :
    CanThrow calm n = false := by
  by_cases hn : n.type = .tool
  · simp [CanThrow, calm, h hn]
  · simp [CanThrow, calm, hn]

/-- for every workflow whose tools take null or an object, every environment that does not throw and
every state of a session: a body begins when what its node depends on is done and the node is not,
at most once in a call, the call returns, and is `ok` exactly when it was let in and every node is
done -/
theorem dag_execution {S : Setup} {env : Env} {s : Session} (henv : env.Respects calm)
    (hargs : ∀ n ∈ S.dsl.nodes, n.type = .tool → (n.arguments.isNull || n.arguments.isObject))
    (hreach : Reach (SessionStep env) (Session.start S) s) : (∀ e id, s.place.begins e = some id →
      (∀ d ∈ deps S.dsl id, Done s.store d) ∧ ¬ Done s.store id) ∧ s.begun.Nodup ∧
    Halts (CallStep env s.setup) (s.place, s.store) ∧
    (Stuck (CallStep env s.setup) (s.place, s.store) → ∃ out, s.place.out = some out) ∧
    ∀ out, s.place.out = some out →
      (out.ok ↔ s.place.Admitted ∧ ∀ n ∈ S.dsl.nodes, Done s.store n.id) := by
  have hno : ∀ n ∈ S.dsl.nodes, CanThrow calm n = false :=
    fun n hn => canThrow_calm (hargs n hn)
  have hok : SessionOk S.dsl s :=
    Reach.inv (fun _ _ h hst => h.step henv hno hst) hreach (SessionOk.start S)
  exact ⟨fun e id hb => hok.begins hb, hok.once, halts_call env s.setup s.place s.store,
    hok.returned, fun out hout => hok.ok_iff hout⟩

/-! ## two sessions -/

def calmEnv : Env where
  may c a := a.fits (some c) ∧ a ≠ .thrown
  fits _ _ h := h.1
  answers c := by
    cases c with
    | approval n => exact ⟨.pause true, rfl, by simp⟩
    | execute id args => exact ⟨.tool .timeout, rfl, by simp⟩
    | _ => exact ⟨.returned, rfl, by simp⟩

lemma calmEnv_respects : calmEnv.Respects calm := fun _ h => absurd rfl h.2

def SessionEvent.quiet : SessionEvent → Bool
  | .call .thrown => false
  | .call (.exec e) => e.answer ≠ .thrown
  | _ => true

def playSession : Session → List SessionEvent → Option Session
  | s, [] => some s
  | s, ev :: evs =>
    if ev.quiet then (sessionStep s ev).bind (playSession · evs) else none

lemma allows_of_quiet {s t : Session} {ev : SessionEvent} (hq : ev.quiet)
    (h : sessionStep s ev = some t) : s.Allows calmEnv ev := by
  obtain ⟨S, q, st, begun⟩ := s
  cases ev with
  | again activeRuns autonomyEnabled => trivial
  | call e =>
    obtain ⟨u, hstep, -⟩ := Option.map_eq_some_iff.1 h
    cases e with
    | returned => cases q <;> trivial
    | thrown => cases hq
    | exec e =>
      cases q with
      | executing S' x =>
        intro c hc
        have hfit : e.answer.fits (callOf S' x e) := by
          by_contra hne
          simp only [callStep, step, if_neg hne, Option.map_none] at hstep
          cases hstep
        rw [hc] at hfit
        exact ⟨hfit, by simpa [SessionEvent.quiet] using hq⟩
      | _ => cases hstep

lemma reach_of_playSession (evs : List SessionEvent) {s t : Session}
    (h : playSession s evs = some t) : Reach (SessionStep calmEnv) s t := by
  refine reach_of_play (fun _ => rfl) ?_ evs h
  intro s ev evs t h
  simp only [playSession] at h
  split at h
  · next hq =>
    obtain ⟨u, hu, hrest⟩ := Option.bind_eq_some_iff.1 h
    exact ⟨u, ⟨ev, allows_of_quiet hq hu, hu⟩, hrest⟩
  · cases h

def submitted (id : String) : List SessionEvent :=
  [.call (.exec (.main .quiet)), .call (.exec (.main .returned)), .call (.exec (.main .returned)),
    .call (.exec (.dispatch [id])), .call (.exec .take)]

def ended : List SessionEvent :=
  [.call (.exec (.main .quiet)), .call (.exec (.main .quiet)), .call (.exec (.main .quiet)),
    .call (.exec (.main .returned))]

def pausedEvents : List SessionEvent :=
  submitted "a" ++ [.call (.exec (.node 0 .quiet)), .call (.exec (.node 0 .returned)),
    .call (.exec (.node 0 (.pause true))), .call (.exec (.node 0 .quiet))] ++ ended

def resumedEvents (autonomyEnabled : Bool) : List SessionEvent :=
  [.again 1 autonomyEnabled, .call .returned, .call .returned, .call .returned, .call .returned]

def toolEvents : List SessionEvent :=
  submitted "x" ++ [.call (.exec (.node 0 .quiet)), .call (.exec (.node 0 .quiet)),
    .call (.exec (.node 0 .quiet)), .call (.exec (.node 0 .returned)),
    .call (.exec (.node 0 (.tool (.success "ok")))), .call (.exec (.node 0 .returned)),
    .call (.exec (.node 0 .quiet))] ++ ended

theorem dag_execution_resumed :
    ∃ s, playSession (Session.start oneApproval) (pausedEvents ++ resumedEvents true ++ toolEvents)
        = some s ∧ s.begun = ["x"] ∧ (∃ out, s.place.out = some out ∧ out.ok) ∧
      ∀ n ∈ oneApproval.dsl.nodes, Done s.store n.id := by
  refine ⟨_, rfl, rfl, ⟨_, rfl, rfl⟩, ?_⟩
  have hargs : ∀ n ∈ oneApproval.dsl.nodes,
      n.type = .tool → (n.arguments.isNull || n.arguments.isObject) := by
    decide
  have hrun := dag_execution calmEnv_respects hargs
    (reach_of_playSession (pausedEvents ++ resumedEvents true ++ toolEvents) rfl)
  exact ((hrun.2.2.2.2 _ rfl).1 rfl).2

/-- the kill switch is on at the resume: the approval node is done, it was the only one, and the
call is refused -/
theorem refused_when_done :
    ∃ s, Reach (SessionStep calmEnv) (Session.start approvalOnly) s ∧
      validateNoCycle approvalOnly.dsl ∧
      (∃ out, s.place.out = some out ∧ out.ok = false ∧ out.errorMessage = "autonomy_disabled") ∧
      ∀ n ∈ approvalOnly.dsl.nodes, Done s.store n.id := by
  have hplay := reach_of_playSession (s := Session.start approvalOnly)
    (pausedEvents ++ resumedEvents false ++ [.call (.exec (.main .quiet)),
      .call (.exec (.main .returned)), .call (.exec (.main .returned))]) rfl
  refine ⟨_, hplay, by decide, ⟨_, rfl, rfl, rfl⟩, ?_⟩
  intro n hn
  rw [mem_singleton.1 hn]
  exact ⟨⟨"a", 1, .succeeded, "", ""⟩, by decide, rfl, .inl rfl⟩

end AegisGate.Workflow
