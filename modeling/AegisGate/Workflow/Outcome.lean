import AegisGate.Workflow.Resume

/-!
# What one `execute` leaves in the store

* `Done`  the store has a record of the node that says succeeded or skipped;
* `Account`  the records against the books of the scheduler, while nothing throws: which nodes are
  done, which bodies have begun, and who is to blame once a flag is up;
* `Stage`  what the phase of the caller says, its result at the end.

A body is at its successful end exactly when it has just written such a record (`done_body`), so a
node in work that has not ended is not done, and nothing takes a record of a done node away.
-/

namespace AegisGate.Workflow

open List Phase

/-! ## done nodes -/

def NodeRun.settled (r : NodeRun) : Prop := r.status = .succeeded ∨ r.status = .skipped

def Done (st : Store) (id : String) : Prop := ∃ r ∈ st.nodeRuns, r.nodeId = id ∧ r.settled

section
variable {st st' : Store} {id : String} {r y : NodeRun} {l : List NodeRun}

lemma done_congr (h : st'.nodeRuns = st.nodeRuns) : Done st' id ↔ Done st id := by
  unfold Done
  rw [h]

lemma mem_upsertNodeRun_self (r : NodeRun) (l : List NodeRun) : r ∈ upsertNodeRun r l := by
  induction l with
  | nil => exact mem_singleton_self r
  | cons z l ih =>
    unfold upsertNodeRun
    split
    · exact mem_cons_self
    · exact mem_cons_of_mem z ih

lemma mem_upsertNodeRun_of_ne (h : y ∈ l) (hne : y.nodeId ≠ r.nodeId) : y ∈ upsertNodeRun r l := by
  induction l with
  | nil => cases h
  | cons z l ih =>
    unfold upsertNodeRun
    split
    · next hz =>
      rcases mem_cons.1 h with rfl | h
      · exact absurd hz.1 hne
      · exact mem_cons_of_mem r h
    · rcases mem_cons.1 h with rfl | h
      · exact mem_cons_self
      · exact mem_cons_of_mem z (ih h)

lemma exists_upsertNodeRun {P : NodeRun → Prop}
    (hr : (∃ y ∈ l, y.nodeId = r.nodeId ∧ P y) → P r) :
    (∃ y ∈ upsertNodeRun r l, y.nodeId = id ∧ P y) ↔
      (∃ y ∈ l, y.nodeId = id ∧ P y) ∨ id = r.nodeId ∧ P r := by
  constructor
  · rintro ⟨y, hy, rfl, hP⟩
    rcases mem_upsertNodeRun hy with rfl | hy
    · exact .inr ⟨rfl, hP⟩
    · exact .inl ⟨y, hy, rfl, hP⟩
  · intro h
    by_cases hid : id = r.nodeId
    · subst hid
      have hP : P r := h.elim hr And.right
      exact ⟨r, mem_upsertNodeRun_self r l, rfl, hP⟩
    · rcases h with ⟨y, hy, rfl, hP⟩ | ⟨heq, -⟩
      · exact ⟨y, mem_upsertNodeRun_of_ne hy hid, rfl, hP⟩
      · exact absurd heq hid

lemma done_upsert (hr : Done st r.nodeId → r.settled) :
    Done (st.after (some (.upsertNodeRun r)) .returned) id ↔
      Done st id ∨ id = r.nodeId ∧ r.settled :=
  exists_upsertNodeRun hr

lemma after_thrown (st : Store) (c : Option Call) : st.after c .thrown = st := by
  cases c with
  | none => rfl
  | some c => cases c <;> rfl

lemma nodeRuns_after_of_ne {c : Option Call} {a : Answer}
    (h : ∀ r, c ≠ some (.upsertNodeRun r)) : (st.after c a).nodeRuns = st.nodeRuns := by
  unfold Store.after
  split
  · rfl
  · rfl
  · next r => exact absurd rfl (h r)
  · rfl

end

/-! ## a step of a body -/

def Flags.marred (fl : Flags) : Bool := fl.paused || fl.anyFailure

section
variable {S : Setup} {n : NodeSpec} {fl fl' : Flags} {pc pc' : Pc} {a : Answer} {st : Store}

lemma toolNext_pc {k : Nat} (h : toolNext fl k a = (fl', some pc')) :
    (∃ output, pc' = .toolOk k output) ∨ ∃ err, pc' = .toolFailed k err := by
  unfold toolNext at h
  split at h <;> cases h
  · exact .inl ⟨_, rfl⟩
  all_goals exact .inr ⟨_, rfl⟩

section
variable (hfin : ∀ advance, pc ≠ .finish advance)
include hfin

lemma runBody_settles (h : runBody S n fl pc a = (fl', some pc')) :
    pc' = .finish true ↔ ∃ r, asks S n pc = some (.upsertNodeRun r) ∧ r.settled := by
  replace h := proceed_of_runBody h
  cases pc with
  | start =>
    cases h
    split <;> simp [asks]
  | entered =>
    cases hn : n.type <;> simp only [proceed, hn] at h <;> cases h
    all_goals simp [asks, hn, NodeRun.settled]
  | askApproval =>
    simp only [proceed] at h
    split at h <;> cases h <;> simp [asks]
  | attempt k err =>
    cases h
    split <;> simp [asks]
  | callTool k =>
    simp only [proceed] at h
    cases hargs : toolArgs S.runId n with
    | error e => simp [hargs] at h
    | ok args =>
      rw [hargs] at h
      rcases toolNext_pc h with ⟨output, rfl⟩ | ⟨err, rfl⟩ <;> simp [asks, hargs]
  | finish advance => exact absurd rfl (hfin advance)
  | _ =>
    cases h
    simp [asks, NodeRun.settled]

theorem done_body (ha : a.fits (asks S n pc)) (h : runBody S n fl pc a = (fl', some pc'))
    (hnot : ¬ Done st n.id) {id : String} :
    Done (st.after (asks S n pc) a) id ↔ Done st id ∨ id = n.id ∧ pc' = .finish true := by
  rw [runBody_settles hfin h]
  by_cases hask : ∃ r, asks S n pc = some (.upsertNodeRun r)
  · obtain ⟨r, hr⟩ := hask
    have hret : a = .returned := by
      rw [hr] at ha
      cases a with
      | returned => rfl
      | thrown => cases h
      | _ => cases ha
    have hid := asks_nodeId hr
    rw [hr, hret, done_upsert fun hdone => absurd (hid ▸ hdone) hnot, hid]
    constructor
    · rintro (hdone | ⟨rfl, hset⟩)
      · exact .inl hdone
      · exact .inr ⟨rfl, r, rfl, hset⟩
    · rintro (hdone | ⟨rfl, r', hr', hset⟩)
      · exact .inl hdone
      · cases hr'
        exact .inr ⟨rfl, hset⟩
  · rw [done_congr (nodeRuns_after_of_ne fun r hr => hask ⟨r, hr⟩)]
    constructor
    · exact .inl
    · rintro (hdone | ⟨-, r, hr, -⟩)
      · exact hdone
      · exact absurd ⟨r, hr⟩ hask

lemma runBody_ne_start (h : runBody S n fl pc a = (fl', some pc')) : pc' ≠ .start := by
  replace h := proceed_of_runBody h
  cases pc with
  | start | attempt k err =>
    cases h
    split <;> simp
  | entered | askApproval =>
    simp only [proceed] at h
    split at h <;> cases h <;> simp
  | callTool k =>
    simp only [proceed] at h
    split at h
    · cases h
    · rcases toolNext_pc h with ⟨output, rfl⟩ | ⟨err, rfl⟩ <;> simp
  | finish advance => exact absurd rfl (hfin advance)
  | _ =>
    cases h
    simp

end

lemma toolNext_marred {k : Nat} {o : Option Pc} (h : toolNext fl k a = (fl', o)) :
    fl'.marred = fl.marred ∧ fl'.cancelled = fl.cancelled := by
  unfold toolNext at h
  split at h <;> cases h <;> exact ⟨rfl, rfl⟩

/-- a body ends without success after a cancellation, or puts up a flag; a flag goes up only then,
and a cancellation comes with one -/
structure FlagsMove (fl fl' : Flags) (pc' : Pc) : Prop where
  keep : fl.marred → fl'.marred
  cancelled : fl'.cancelled → fl.cancelled ∨ fl'.marred
  ended : pc' = .finish false → fl.cancelled ∨ fl'.marred
  raised : fl'.marred → fl.marred ∨ pc' = .finish false

open FlagsMove

lemma FlagsMove.same (hm : fl'.marred = fl.marred) (hc : fl'.cancelled = fl.cancelled)
    (hpc : pc' = .finish false → fl.cancelled) : FlagsMove fl fl' pc' where
  keep h := hm ▸ h
  cancelled h := .inl (hc ▸ h)
  ended h := .inl (hpc h)
  raised h := .inl (hm ▸ h)

lemma FlagsMove.raise (hm : fl'.marred) : FlagsMove fl fl' (.finish false) where
  keep _ := hm
  cancelled _ := .inr hm
  ended _ := .inr hm
  raised _ := .inr rfl

lemma runBody_flags (hfin : ∀ advance, pc ≠ .finish advance)
    (h : runBody S n fl pc a = (fl', some pc')) : FlagsMove fl fl' pc' := by
  replace h := proceed_of_runBody h
  cases pc with
  | start =>
    cases h
    apply same rfl rfl
    split
    · next hc => exact fun _ => hc
    · intro hpc
      cases hpc
  | entered =>
    simp only [proceed] at h
    split at h <;> cases h <;> exact same rfl rfl (by intro h; cases h)
  | askApproval =>
    simp only [proceed] at h
    split at h <;> cases h
    · exact same rfl rfl (by intro h; cases h)
    · exact raise rfl
  | attempt k err =>
    cases h
    apply same rfl rfl
    split <;> intro hpc <;> cases hpc
  | callTool k =>
    simp only [proceed] at h
    split at h
    · cases h
    · obtain ⟨hm, hc⟩ := toolNext_marred h
      apply same hm hc
      rcases toolNext_pc h with ⟨output, rfl⟩ | ⟨err, rfl⟩ <;> simp
  | deadLetter k err =>
    cases h
    apply raise
    simp [Flags.marred]
  | finish advance => exact absurd rfl (hfin advance)
  | _ =>
    cases h
    exact same rfl rfl (by intro h; cases h)

end

/-! ## records and books -/

def Working (x : Exec) (P : Pc → Prop) (id : String) : Prop :=
  ∃ job ∈ x.running, job.node.id = id ∧ P job.pc

structure Account (S : Setup) (x : Exec) (st : Store) (begun done stalled : List String) :
    Prop where
  books : Books S x done [] stalled
  jobs : ∀ job ∈ x.running, job.node ∈ S.dsl.nodes ∧ Typed job.node job.pc
  advanced : ∀ id ∈ done, Done st id
  finished : ∀ job ∈ x.running, job.pc = .finish true → Done st job.node.id
  only : ∀ id ∈ ids S.dsl, Done st id → id ∈ done ∨ id ∈ stalled ∨ Working x (· = .finish true) id
  started : ∀ id ∈ begun, id ∈ done ∨ id ∈ stalled ∨ Working x (· ≠ .start) id
  once : begun.Nodup
  cancelled : x.flags.cancelled → x.flags.marred
  stopped : stalled ≠ [] → x.flags.marred
  ended : ∀ job ∈ x.running, job.pc = .finish false → x.flags.marred
  /-- with a flag up some node has ended without being done -/
  culprit : x.flags.marred → ∃ id ∈ ids S.dsl, ¬ Done st id ∧
    (id ∈ stalled ∨ Working x (· = .finish false) id)

section
variable {S : Setup} {x x' : Exec} {st st' : Store} {begun done stalled : List String}
  {l r : List Job} {job : Job} {P : Pc → Prop} {id : String} {a : Answer} {fl : Flags} {pc : Pc}

lemma Working.split (h : Working x P id) (hr : x.running = l ++ job :: r) :
    (∃ j ∈ l ++ r, j.node.id = id ∧ P j.pc) ∨ job.node.id = id ∧ P job.pc := by
  obtain ⟨j, hj, hid, hP⟩ := h
  rw [hr] at hj
  rcases Position.mem_split_cases hj with hj | rfl
  · exact .inl ⟨j, hj, hid, hP⟩
  · exact .inr ⟨hid, hP⟩

lemma running_of_leave (hr : x.running = l ++ job :: r) (hr' : x'.running = l ++ r) :
    ∀ j ∈ x'.running, j ∈ x.running := by
  intro j hj
  rw [hr'] at hj
  rw [hr]
  exact Position.mem_of_mem_rest job hj

lemma Working.leave (hw : Working x P id) (hr : x.running = l ++ job :: r)
    (hr' : x'.running = l ++ r) : Working x' P id ∨ id = job.node.id ∧ P job.pc := by
  rcases hw.split hr with ⟨j, hj, hid, hP⟩ | ⟨hid, hP⟩
  · exact .inl ⟨j, hr' ▸ hj, hid, hP⟩
  · exact .inr ⟨hid.symm, hP⟩

lemma Working.move (h : Working x P id) (hr : x.running = l ++ job :: r) (hP : P job.pc → P pc) :
    Working { x with flags := fl, running := l ++ { job with pc } :: r } P id := by
  rcases h.split hr with ⟨j, hj, hid, hj'⟩ | ⟨rfl, hpc⟩
  · refine ⟨j, ?_, hid, hj'⟩
    exact Position.mem_of_mem_rest { job with pc } hj
  · exact ⟨{ job with pc }, by simp, rfl, hP hpc⟩

lemma Working.mono (h : Working x P id) (hr : ∀ job ∈ x.running, job ∈ x'.running) :
    Working x' P id := by
  obtain ⟨j, hj, hid, hP⟩ := h
  exact ⟨j, hr j hj, hid, hP⟩

lemma Books.alone (hb : Books S x done [] stalled) (hr : x.running = l ++ job :: r) :
    job.node.id ∉ done ∧ job.node.id ∉ stalled ∧ ∀ j ∈ l ++ r, j.node.id ≠ job.node.id := by
  have hs := (hb.waiting (.inl (by simp [hr]))).2
  have hfresh := hs.frontier.fresh job.node.id (by simp [hr])
  have hnodup := hs.frontier.nodup
  rw [hr] at hnodup
  simp only [map_append, map_cons, append_nil] at hnodup
  have hperm : (l.map (·.node.id) ++ job.node.id :: r.map (·.node.id) ++ x.queue ++ stalled).Perm
      (job.node.id :: ((l ++ r).map (·.node.id) ++ x.queue ++ stalled)) := by
    refine perm_iff_count.2 fun a => ?_
    simp only [map_append, count_append, count_cons]
    omega
  have hnot := (nodup_cons.1 (hperm.nodup_iff.1 hnodup)).1
  refine ⟨hfresh, fun hst => hnot (by simp [hst]), fun j hj hid => hnot ?_⟩
  simp only [mem_append]
  exact .inl (.inl (mem_map.2 ⟨j, hj, hid⟩))

lemma Account.mem_ids (h : Account S x st begun done stalled) (hjob : job ∈ x.running) :
    job.node.id ∈ ids S.dsl := mem_map_of_mem (h.jobs job hjob).1

lemma Books.at_job (hb : Books S x done [] stalled) (hr : x.running = l ++ job :: r)
    (h : job.node.id ∈ done ∨ job.node.id ∈ stalled ∨ Working x P job.node.id) : P job.pc := by
  obtain ⟨hnd, hns, hother⟩ := hb.alone hr
  rcases h with hd | hs | hw
  · exact absurd hd hnd
  · exact absurd hs hns
  · rcases hw.split hr with ⟨j, hj, hid, -⟩ | ⟨-, hP⟩
    · exact absurd hid (hother j hj)
    · exact hP

section
variable (h : Account S x st begun done stalled)
include h

lemma Account.undone (hr : x.running = l ++ job :: r)
    (hpc : job.pc ≠ .finish true) : ¬ Done st job.node.id := by
  intro hdone
  have hat := h.only job.node.id (h.mem_ids (by simp [hr])) hdone
  exact hpc (h.books.at_job hr hat)

lemma Account.congr (hb : Books S x' done [] stalled)
    (hr : x'.running = x.running) (hc : x'.flags.cancelled = x.flags.cancelled)
    (hm : x'.flags.marred = x.flags.marred) (hst : st'.nodeRuns = st.nodeRuns) :
    Account S x' st' begun done stalled := by
  have hw : ∀ {P : Pc → Prop} {id : String}, Working x' P id ↔ Working x P id := by
    intro P id
    unfold Working
    rw [hr]
  refine ⟨hb, ?_, ?_, ?_, ?_, ?_, h.once, ?_, ?_, ?_, ?_⟩
  · rw [hr]
    exact h.jobs
  · exact fun id hid => (done_congr hst).2 (h.advanced id hid)
  · rw [hr]
    exact fun job hjob hpc => (done_congr hst).2 (h.finished job hjob hpc)
  · intro id hid hdone
    rw [hw]
    exact h.only id hid ((done_congr hst).1 hdone)
  · intro id hid
    rw [hw]
    exact h.started id hid
  · rw [hc, hm]
    exact h.cancelled
  · rw [hm]
    exact h.stopped
  · rw [hr, hm]
    exact h.ended
  · intro hmarred
    rw [hm] at hmarred
    obtain ⟨id, hid, hnot, hat⟩ := h.culprit hmarred
    rw [← hw] at hat
    exact ⟨id, hid, fun hdone => hnot ((done_congr hst).1 hdone), hat⟩

lemma Account.take {rest : List String} (hq : x.queue = id :: rest) :
    Account S { x with queue := rest, running := x.running ++ [⟨byId S.dsl id, .start⟩] } st begun
      done stalled := by
  obtain ⟨hp, hs⟩ := h.books.waiting (.inr (by simp [hq]))
  have hnode : (byId S.dsl id).id = id ∧ byId S.dsl id ∈ S.dsl.nodes :=
    mem_nodes_of_queue h.books (by simp [hq])
  have hsub : ∀ job ∈ x.running, job ∈ x.running ++ [⟨byId S.dsl id, .start⟩] :=
    fun job hjob => mem_append_left _ hjob
  have hnew : ∀ job ∈ x.running ++ [⟨byId S.dsl id, .start⟩],
      job ∈ x.running ∨ job = ⟨byId S.dsl id, .start⟩ := by
    intro job hjob
    simpa using hjob
  refine ⟨.dispatched (.inl hp) (hs.take hq), ?_, h.advanced, ?_, ?_, ?_, h.once, h.cancelled,
    h.stopped, ?_, ?_⟩
  · intro job hjob
    rcases hnew job hjob with hjob | rfl
    · exact h.jobs job hjob
    · exact ⟨hnode.2, trivial⟩
  · intro job hjob hpc
    rcases hnew job hjob with hjob | rfl
    · exact h.finished job hjob hpc
    · cases hpc
  · exact fun id hid hdone => (h.only id hid hdone).imp_right (Or.imp_right (·.mono hsub))
  · exact fun id hid => (h.started id hid).imp_right (Or.imp_right (·.mono hsub))
  · intro job hjob hpc
    rcases hnew job hjob with hjob | rfl
    · exact h.ended job hjob hpc
    · cases hpc
  · intro hmarred
    obtain ⟨id, hid, hnot, hat⟩ := h.culprit hmarred
    exact ⟨id, hid, hnot, hat.imp_right (·.mono hsub)⟩

section
variable (hr : x.running = l ++ job :: r)
include hr

lemma Account.leave {done' stalled' : List String} (hfl : x'.flags = x.flags)
    (hr' : x'.running = l ++ r) (hb : Books S x' done' [] stalled')
    (hdone : ∀ id, id ∈ done' → id ∈ done ∨ id = job.node.id ∧ job.pc = .finish true)
    (hin : ∀ id, id ∈ done ∨ id ∈ stalled ∨ id = job.node.id → id ∈ done' ∨ id ∈ stalled')
    (hstop : stalled' ≠ [] → x.flags.marred)
    (hculprit : ∀ id, id ∈ stalled ∨ id = job.node.id ∧ job.pc = .finish false → id ∈ stalled') :
    Account S x' st begun done' stalled' := by
  have hsub := running_of_leave hr hr'
  have hkeep : ∀ {P : Pc → Prop} {id : String}, id ∈ done ∨ id ∈ stalled ∨ Working x P id →
      id ∈ done' ∨ id ∈ stalled' ∨ Working x' P id := by
    intro P id hat
    have hcases : (id ∈ done ∨ id ∈ stalled ∨ id = job.node.id) ∨ Working x' P id := by
      rcases hat with hd | hs | hw
      · exact .inl (.inl hd)
      · exact .inl (.inr (.inl hs))
      · exact (hw.leave hr hr').symm.imp_left fun hid => .inr (.inr hid.1)
    rcases hcases with hold | hw
    · exact (hin id hold).imp_right .inl
    · exact .inr (.inr hw)
  refine ⟨hb, fun j hj => h.jobs j (hsub j hj), ?_, fun j hj => h.finished j (hsub j hj),
    fun id hid hd => hkeep (h.only id hid hd), fun id hid => hkeep (h.started id hid), h.once,
    ?_, ?_, ?_, ?_⟩
  · intro id hid
    rcases hdone id hid with hid | ⟨rfl, hpc⟩
    · exact h.advanced id hid
    · exact h.finished job (by simp [hr]) hpc
  · rw [hfl]
    exact h.cancelled
  · rw [hfl]
    exact hstop
  · rw [hfl]
    exact fun j hj => h.ended j (hsub j hj)
  · rw [hfl]
    intro hmarred
    obtain ⟨id, hid, hnot, hat⟩ := h.culprit hmarred
    refine ⟨id, hid, hnot, ?_⟩
    rcases hat with hs | hw
    · exact .inl (hculprit id (.inl hs))
    · rcases hw.leave hr hr' with hw | hjob
      · exact .inr hw
      · exact .inl (hculprit id (.inr hjob))

lemma Account.release (hpc : job.pc = .finish true) :
    Account S
      { x with running := l ++ r
               inDegree := (Topo.release x.inDegree (succ S.dsl job.node.id)).1
               queue := x.queue ++ (Topo.release x.inDegree (succ S.dsl job.node.id)).2
               outstanding := x.outstanding
                 + (Topo.release x.inDegree (succ S.dsl job.node.id)).2.length - 1 }
      st begun (job.node.id :: done) stalled := by
  obtain ⟨hp, hs⟩ := h.books.waiting (.inl (by simp [hr]))
  refine h.leave hr rfl rfl (.dispatched (.inl hp) (hs.release hr)) ?_ ?_ h.stopped ?_
  · intro id hid
    rcases mem_cons.1 hid with rfl | hid
    · exact .inr ⟨rfl, hpc⟩
    · exact .inl hid
  · rintro id (hd | hst | rfl)
    · exact .inl (mem_cons_of_mem _ hd)
    · exact .inr hst
    · exact .inl mem_cons_self
  · rintro id (hst | ⟨-, hfalse⟩)
    · exact hst
    · rw [hpc] at hfalse
      cases hfalse

lemma Account.stall {advance : Bool} (hpc : job.pc = .finish advance)
    (hc : advance = false ∨ x.flags.cancelled) :
    Account S { x with running := l ++ r, outstanding := x.outstanding - 1 } st begun done
      (job.node.id :: stalled) := by
  obtain ⟨hp, hs⟩ := h.books.waiting (.inl (by simp [hr]))
  refine h.leave hr rfl rfl (.dispatched (.inl hp) (hs.stall hr)) (fun id hid => .inl hid) ?_ ?_ ?_
  · rintro id (hd | hst | rfl)
    · exact .inl hd
    · exact .inr (mem_cons_of_mem _ hst)
    · exact .inr mem_cons_self
  · intro _
    rcases hc with rfl | hc
    · exact h.ended job (by simp [hr]) hpc
    · exact h.cancelled hc
  · rintro id (hst | ⟨rfl, -⟩)
    · exact mem_cons_of_mem _ hst
    · exact mem_cons_self

end

end

lemma begins_node (hr : x.running = l ++ job :: r) :
    (Resuming.executing S x).begins (.exec (.node l.length a)) =
      if job.pc = .start ∧ x.flags.cancelled = false then some job.node.id else none := by
  have hget : x.running[l.length]? = some job := by
    rw [hr]
    simp
  simp only [Resuming.begins, hget, Option.bind_some]

lemma Account.body (h : Account S x st begun done stalled) (hr : x.running = l ++ job :: r)
    (hfin : ∀ advance, job.pc ≠ .finish advance) (ha : a.fits (asks S job.node job.pc))
    (hb : runBody S job.node x.flags job.pc a = (fl, some pc)) :
    Account S { x with flags := fl, running := l ++ { job with pc } :: r }
      (st.after (asks S job.node job.pc) a)
      (((Resuming.executing S x).begins (.exec (.node l.length a))).toList ++ begun)
      done stalled := by
  obtain ⟨hp, hs⟩ := h.books.waiting (.inl (by simp [hr]))
  have hjob : job ∈ x.running := by simp [hr]
  have hdone : ∀ {id : String}, Done (st.after (asks S job.node job.pc) a) id ↔
      Done st id ∨ id = job.node.id ∧ pc = .finish true :=
    done_body hfin ha hb (h.undone hr (hfin true))
  have hflags := runBody_flags hfin hb
  have hnew : ∀ j ∈ l ++ { job with pc } :: r, j ∈ x.running ∨ j = { job with pc } := by
    intro j hj
    rw [hr]
    exact (Position.mem_split_cases hj).imp_left (Position.mem_of_mem_rest job)
  have hself : ∀ {P : Pc → Prop}, P pc →
      Working { x with flags := fl, running := l ++ { job with pc } :: r } P job.node.id :=
    fun hP => ⟨{ job with pc }, by simp, rfl, hP⟩
  refine ⟨.dispatched (.inl hp) (hs.body hr), ?_, ?_, ?_, ?_, ?_, ?_, ?_, ?_, ?_, ?_⟩
  · intro j hj
    rcases hnew j hj with hj | rfl
    · exact h.jobs j hj
    · exact ⟨(h.jobs job hjob).1, runBody_typed (h.jobs job hjob).2 hb⟩
  · exact fun id hid => hdone.2 (.inl (h.advanced id hid))
  · intro j hj hpc
    rcases hnew j hj with hj | rfl
    · exact hdone.2 (.inl (h.finished j hj hpc))
    · exact hdone.2 (.inr ⟨rfl, hpc⟩)
  · intro id hid hd
    rcases hdone.1 hd with hd | ⟨rfl, hpc⟩
    · have hat := h.only id hid hd
      exact hat.imp_right (Or.imp_right (·.move hr (absurd · (hfin true))))
    · exact .inr (.inr (hself hpc))
  · intro id hid
    rcases mem_append.1 hid with hid | hid
    · rw [begins_node hr, Option.mem_toList] at hid
      split at hid
      · cases hid
        exact .inr (.inr (hself (runBody_ne_start hfin hb)))
      · cases hid
    · have hat := h.started id hid
      exact hat.imp_right (Or.imp_right (·.move hr fun _ => runBody_ne_start hfin hb))
  · rw [begins_node hr]
    split
    · next hstart =>
      refine nodup_cons.2 ⟨fun hmem => ?_, h.once⟩
      exact h.books.at_job hr (h.started job.node.id hmem) hstart.1
    · exact h.once
  · intro hc
    rcases hflags.cancelled hc with hc | hm
    · exact hflags.keep (h.cancelled hc)
    · exact hm
  · exact fun hne => hflags.keep (h.stopped hne)
  · intro j hj hpc
    rcases hnew j hj with hj | rfl
    · exact hflags.keep (h.ended j hj hpc)
    · rcases hflags.ended hpc with hc | hm
      · exact hflags.keep (h.cancelled hc)
      · exact hm
  · intro hmarred
    rcases hflags.raised hmarred with hm | hpc
    · obtain ⟨id, hid, hnot, hat⟩ := h.culprit hm
      have hne : id ≠ job.node.id := by
        rintro rfl
        exact hfin false (h.books.at_job hr (.inr hat))
      refine ⟨id, hid, fun hd => ?_, hat.imp_right (·.move hr (absurd · (hfin false)))⟩
      rcases hdone.1 hd with hd | ⟨heq, -⟩
      · exact hnot hd
      · exact hne heq
    · refine ⟨job.node.id, h.mem_ids hjob, fun hd => ?_, .inr (hself hpc)⟩
      rcases hdone.1 hd with hd | ⟨-, htrue⟩
      · exact h.undone hr (hfin true) hd
      · rw [hpc] at htrue
        cases htrue

lemma mainAsks_ne_upsert (S : Setup) (x : Exec) (r : NodeRun) :
    mainAsks S x ≠ some (.upsertNodeRun r) := by
  intro h
  unfold mainAsks at h
  split at h <;> cases h

lemma account_init (S : Setup) (st : Store) (hfresh : ∀ id ∈ ids S.dsl, ¬ Done st id) :
    Account S { inDegree := inDegree S.dsl } st [] [] [] where
  books := books_init S
  jobs _ hjob := by cases hjob
  advanced _ hid := by cases hid
  finished _ hjob := by cases hjob
  only id hid hdone := absurd hdone (hfresh id hid)
  started _ hid := by cases hid
  once := nodup_nil
  cancelled h := by cases h
  stopped h := absurd rfl h
  ended _ hjob := by cases hjob
  culprit h := by cases h

variable {env : Env} {e : Event}

lemma Account.not_gone (henv : env.Respects calm)
    (hno : ∀ n ∈ S.dsl.nodes, CanThrow calm n = false) (h : Account S x st begun done stalled)
    (hr : x.running = l ++ job :: r) (ha : a.fits (asks S job.node job.pc))
    (hallow : env.Allows S x (.node l.length a)) :
    runBody S job.node x.flags job.pc a ≠ (fl, none) := by
  intro hb
  obtain ⟨hmem, htyped⟩ := h.jobs job (by simp [hr])
  have hmay : ∀ c, asks S job.node job.pc = some c → env.may c a := by
    intro c hc
    rw [← callOf_node (a := a) hr] at hc
    exact hallow c hc
  have hthrow := canThrow_of_gone (fun c _ => henv c) htyped ha hmay hb
  rw [hno job.node hmem] at hthrow
  cases hthrow

lemma Account.step (henv : env.Respects calm)
    (hno : ∀ n ∈ S.dsl.nodes, CanThrow calm n = false) (h : Account S x st begun done stalled)
    (hallow : env.Allows S x e) (hstep : step S (x, st) e = some (x', st')) :
    ∃ done' stalled', Account S x' st'
      (((Resuming.executing S x).begins (.exec e)).toList ++ begun) done' stalled' := by
  obtain ⟨hm, rfl⟩ := moves_of_step hstep
  cases hm with
  | main ha hnext =>
    exact ⟨done, stalled, h.congr (h.books.main hnext) rfl rfl rfl
      (nodeRuns_after_of_ne (mainAsks_ne_upsert S x))⟩
  | escape hask => exact absurd (hallow _ hask) henv.not_thrown
  | dispatch hp ho => exact ⟨done, stalled, h.congr (h.books.dispatch hp ho) rfl rfl rfl rfl⟩
  | take hq hw => exact ⟨done, stalled, h.take hq⟩
  | @release l r job a hr hpc hc =>
    refine ⟨job.node.id :: done, stalled, ?_⟩
    rw [callOf_node hr, begins_node hr, hpc]
    exact h.release hr hpc
  | @stall l r job a advance hr hpc hc =>
    refine ⟨done, job.node.id :: stalled, ?_⟩
    rw [callOf_node hr, begins_node hr, hpc]
    exact h.stall hr hpc hc
  | body hr hpc ha hb =>
    rw [callOf_node hr]
    exact ⟨done, stalled, h.body hr hpc ha hb⟩
  | gone hr hpc ha hb => exact absurd hb (h.not_gone henv hno hr ha hallow)
  | straggler hd => exact ⟨done, stalled, h.congr h.books.flags rfl rfl rfl rfl⟩

lemma Account.mono (h : Account S x st begun done stalled)
    (hstep : Workflow.step S (x, st) e = some (x', st')) (hdone : Done st id) : Done st' id := by
  obtain ⟨hm, rfl⟩ := moves_of_step hstep
  cases hm with
  | main ha hnext | escape hask =>
    exact (done_congr (nodeRuns_after_of_ne (mainAsks_ne_upsert S x))).2 hdone
  | dispatch | take | straggler => exact hdone
  | release hr hpc hc | stall hr hpc hc =>
    rw [callOf_node hr, hpc]
    exact hdone
  | body hr hpc ha hb =>
    rw [callOf_node hr]
    exact (done_body hpc ha hb (h.undone hr (hpc true))).2 (.inl hdone)
  | @gone l r job a fl hr hpc ha hb =>
    rw [callOf_node hr]
    obtain ⟨-, rfl | ⟨⟨k, hk⟩, err, herr⟩⟩ := runBody_none hb
    · exact (done_congr (congrArg Store.nodeRuns (after_thrown st _))).2 hdone
    · have hask : asks S job.node job.pc = none := by simp only [hk, asks, herr]
      rw [hask]
      exact hdone

end

/-! ## the result -/

def Setup.Admits (S : Setup) : Prop :=
  S.activeRuns ≤ S.cfg.maxConcurrentRuns ∧ S.autonomyEnabled

/-- what the phase says: past the validators, turned away, or back with a result -/
structure Stage (S : Setup) (x : Exec) (st : Store) : Prop where
  passed : x.phase.refused = false → preflight S = .creating
  turned : x.phase = .refusing ∨ x.phase = .cancelling → S.autonomyEnabled = false
  caught : x.phase ≠ .escaped
  returned : ∀ out, x.phase = .returned out → (out.ok ↔ S.Admits ∧ ∀ id ∈ ids S.dsl, Done st id)

open Stage

section
variable {S : Setup} {x x' : Exec} {st st' : Store} {begun done stalled : List String}
  {env : Env} {e : Event}

lemma admits_of_preflight (h : preflight S = .creating) : S.Admits := by
  obtain ⟨hactive, henabled, -⟩ := preflight_eq_creating_iff.1 h
  exact ⟨hactive, henabled⟩

lemma nodes_of_blocked (hadm : S.Admits) (h : Blocked S) : S.dsl.nodes ≠ [] := by
  intro hnil
  obtain ⟨out, hout⟩ := h
  have hcycle : validateNoCycle S.dsl := by
    simp [validateNoCycle, hnil, Topo.kahn]
  have hbypass : validateNoSandboxBypass none S.dsl = [] := by
    simp [validateNoSandboxBypass, hnil]
  rw [preflight_eq_creating_iff.2 ⟨hadm.1, hadm.2, hcycle, hbypass⟩] at hout
  cases hout

lemma result_ok (fl : Flags) : (result fl).ok = !fl.marred := by
  unfold result Flags.marred
  cases fl.paused <;> cases fl.anyFailure <;> rfl

lemma Account.fresh (h : Account S x st begun done stalled) (hp : x.phase = .begin) :
    ∀ id ∈ ids S.dsl, ¬ Done st id := by
  intro id hid hdone
  cases h.books with
  | fresh _ hr _ _ _ =>
    rcases h.only id hid hdone with hd | hs | ⟨job, hjob, -⟩
    · cases hd
    · cases hs
    · rw [hr] at hjob
      cases hjob
  | dispatched hp' hs => simp [hp, Phase.over] at hp'

/-- a run that comes to its end without a flag has done every node -/
lemma Account.complete (h : Account S x st begun done stalled)
    (hpre : preflight S = .creating) (hp : x.phase = .closing) (hm : x.flags.marred = false) :
    ∀ id ∈ ids S.dsl, Done st id := by
  have hstalled : stalled = [] := by
    by_contra hne
    have hmarred := h.stopped hne
    rw [hm] at hmarred
    cases hmarred
  subst hstalled
  intro id hid
  exact h.advanced id (h.books.covered hp (preflight_eq_creating_iff.1 hpre).2.2.1 id hid)

lemma Stage.congr (h : Stage S x st) (hp : x'.phase = x.phase)
    (hst : st'.nodeRuns = st.nodeRuns) : Stage S x' st' := by
  refine ⟨hp ▸ h.passed, hp ▸ h.turned, hp ▸ h.caught, ?_⟩
  intro out hout
  simp only [done_congr hst]
  exact h.returned out (hp ▸ hout)

lemma Stage.inside (hpre : preflight S = .creating) (hp : x.phase.refused = false) :
    Stage S x st := by
  refine ⟨fun _ => hpre, ?_, ?_, ?_⟩
  · rintro (hr | hc)
    · simp [hr, refused] at hp
    · simp [hc, refused] at hp
  · intro he
    simp [he, refused] at hp
  · intro out hout
    simp [hout, refused] at hp

lemma Stage.back {out : WorkflowExecutionResult} (hp : x.phase = .returned out)
    (hout : out.ok ↔ S.Admits ∧ ∀ id ∈ ids S.dsl, Done st id) : Stage S x st := by
  refine ⟨?_, ?_, ?_, ?_⟩
  · intro hr
    simp [hp, refused] at hr
  · simp [hp]
  · simp [hp]
  · intro out' hout'
    rw [hp] at hout'
    cases hout'
    exact hout

lemma Stage.begin (h : Account S x st begun done stalled) (hp : x.phase = .begin)
    (hp' : x'.phase = preflight S) : Stage S x' st := by
  rcases preflight_cases S with ⟨message, hpre⟩ | ⟨hpre, hoff⟩ | ⟨hpre, -⟩
  · refine back (hp'.trans hpre) ⟨(by simp), ?_⟩
    rintro ⟨hadm, hall⟩
    obtain ⟨n, hn⟩ := exists_mem_of_ne_nil _ (nodes_of_blocked hadm ⟨_, hpre⟩)
    have hid : n.id ∈ ids S.dsl := mem_map_of_mem hn
    exact absurd (hall n.id hid) (h.fresh hp n.id hid)
  · rw [hpre] at hp'
    refine ⟨?_, fun _ => hoff, ?_, ?_⟩ <;> simp [hp', refused]
  · exact inside hpre (by rw [hp', hpre]; rfl)

lemma Stage.disabled (hoff : S.autonomyEnabled = false)
    (hp : x.phase = .returned autonomyDisabled) : Stage S x st := by
  refine back hp ⟨(by simp [autonomyDisabled]), ?_⟩
  rintro ⟨hadm, -⟩
  rw [hadm.2] at hoff
  cases hoff

lemma Stage.closing (h : Account S x st begun done stalled) (hpre : preflight S = .creating)
    (hp : x.phase = .closing) (hp' : x'.phase = .returned (result x.flags)) : Stage S x' st := by
  refine back hp' ?_
  rw [result_ok]
  constructor
  · intro hok
    have hm : x.flags.marred = false := by simpa using hok
    exact ⟨admits_of_preflight hpre, h.complete hpre hp hm⟩
  · rintro ⟨-, hall⟩
    cases hm : x.flags.marred with
    | false => rfl
    | true =>
      obtain ⟨id, hid, hnot, -⟩ := h.culprit hm
      exact absurd (hall id hid) hnot

lemma Stage.main {phase : Phase} (hs : Stage S x st) (h : Account S x st begun done stalled)
    (hnext : mainNext S x st = some phase) : Stage S { x with phase } st := by
  unfold mainNext at hnext
  split at hnext
  case h_1 hp =>
    cases hnext
    exact begin h hp rfl
  case h_2 hp =>
    cases hnext
    have hoff := hs.turned (.inl hp)
    split
    · exact ⟨by simp [refused], fun _ => hoff, by simp, by simp⟩
    · exact disabled hoff rfl
  case h_3 hp =>
    cases hnext
    exact disabled (hs.turned (.inr hp)) rfl
  case h_4 hp | h_5 hp =>
    cases hnext
    exact inside (hs.passed (by rw [hp]; rfl)) rfl
  case h_6 hp | h_7 hp | h_8 hp =>
    split at hnext <;> cases hnext
    exact inside (hs.passed (by rw [hp]; rfl)) rfl
  case h_9 hp =>
    cases hnext
    exact closing h (hs.passed (by rw [hp]; rfl)) hp rfl
  case h_10 => cases hnext

lemma Stage.step (henv : env.Respects calm) (hs : Stage S x st)
    (h : Account S x st begun done stalled) (hallow : env.Allows S x e)
    (hstep : step S (x, st) e = some (x', st')) : Stage S x' st' := by
  obtain ⟨hm, rfl⟩ := moves_of_step hstep
  -- a job or a queued node is there only while the caller waits
  have hwait : (x.running ≠ [] ∨ x.queue ≠ []) → x'.phase = x.phase →
      Stage S x' (st.after (callOf S x e) e.answer) := by
    intro hne hp
    have hphase := (h.books.waiting hne).1
    refine inside (hs.passed ?_) ?_
    · rw [hphase]
      rfl
    · rw [hp, hphase]
      rfl
  cases hm with
  | main ha hnext =>
    exact (hs.main h hnext).congr rfl (nodeRuns_after_of_ne (mainAsks_ne_upsert S x))
  | escape hask => exact absurd (hallow _ hask) henv.not_thrown
  | dispatch hp ho => exact inside (hs.passed (by rw [hp]; rfl)) rfl
  | take hq hw => exact hwait (.inr (by simp [hq])) rfl
  | release hr hpc hc | stall hr hpc hc | body hr hpc ha hb | gone hr hpc ha hb =>
    exact hwait (.inl (by simp [hr])) rfl
  | straggler hd => exact hs.congr rfl rfl

lemma stage_init (S : Setup) (st : Store) : Stage S { inDegree := inDegree S.dsl } st := by
  refine ⟨?_, ?_, ?_, ?_⟩ <;> simp [refused]

end

end AegisGate.Workflow
