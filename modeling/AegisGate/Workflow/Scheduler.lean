import AegisGate.Lib.Position
import AegisGate.Workflow.Engine

/-!
# What the scheduler does

* `Moves`  what one event can do, said once: every invariant below and in the modules that follow is
  a case split on it;
* `Sched`  the bookkeeping of a dispatched run: the nodes that have advanced, those in work, those
  whose job was lost to an exception, and those that ended without releasing anything.

`Moves.books` is the step lemma of the bookkeeping: which of these lists a move can change, and how.
-/

namespace AegisGate.Workflow

open List Position Topo

/-! ## moves -/

inductive Moves (S : Setup) (st : Store) (x : Exec) : Event → Exec → Prop
  | main {a phase} (ha : a.fits (mainAsks S x))
      (h : mainNext S x st = some phase) : Moves S st x (.main a) { x with phase }
  | escape {c} (h : mainAsks S x = some c) :
      Moves S st x (.main .thrown) { x with phase := .escaped }
  | dispatch {order} (hp : x.phase = .dispatching) (ho : order.Perm (roots S.dsl)) :
      Moves S st x (.dispatch order)
        { x with phase := .waiting, queue := order, outstanding := order.length }
  | take {id rest} (hq : x.queue = id :: rest)
      (hw : x.running.length < workers S) :
      Moves S st x .take
        { x with queue := rest, running := x.running ++ [⟨byId S.dsl id, .start⟩] }
  | release {l r job a} (hr : x.running = l ++ job :: r)
      (hpc : job.pc = .finish true) (hc : x.flags.cancelled = false) :
      Moves S st x (.node l.length a)
        { x with running := l ++ r
                 inDegree := (release x.inDegree (succ S.dsl job.node.id)).1
                 queue := x.queue ++ (release x.inDegree (succ S.dsl job.node.id)).2
                 outstanding := x.outstanding
                   + (release x.inDegree (succ S.dsl job.node.id)).2.length - 1 }
  | stall {l r job a advance}
      (hr : x.running = l ++ job :: r) (hpc : job.pc = .finish advance)
      (hc : advance = false ∨ x.flags.cancelled) :
      Moves S st x (.node l.length a)
        { x with running := l ++ r, outstanding := x.outstanding - 1 }
  | body {l r job a fl pc}
      (hr : x.running = l ++ job :: r) (hpc : ∀ advance, job.pc ≠ .finish advance)
      (ha : a.fits (asks S job.node job.pc))
      (hb : runBody S job.node x.flags job.pc a = (fl, some pc)) :
      Moves S st x (.node l.length a)
        { x with flags := fl, running := l ++ { job with pc } :: r }
  | gone {l r job a fl}
      (hr : x.running = l ++ job :: r) (hpc : ∀ advance, job.pc ≠ .finish advance)
      (ha : a.fits (asks S job.node job.pc))
      (hb : runBody S job.node x.flags job.pc a = (fl, none)) :
      Moves S st x (.node l.length a) { x with flags := fl, running := l ++ r }
  | straggler (h : x.flags.detached ≠ 0) :
      Moves S st x .straggler { x with flags := { x.flags with detached := x.flags.detached - 1 } }

open Moves

section
variable {S : Setup} {st st' : Store} {x x' : Exec} {e : Event} {a : Answer} {job : Job}
  {r l : List Job}

section
variable (hr : x.running = l ++ job :: r)
include hr

lemma moves_complete {advance : Bool} (hpc : job.pc = .finish advance) :
    Moves S st x (.node l.length a) (complete S x l.length job.node advance) := by
  have herase : x.running.eraseIdx l.length = l ++ r := by rw [hr, eraseIdx_split]
  unfold complete
  rw [herase]
  by_cases hadv : advance ∧ x.flags.cancelled = false
  · rw [if_pos (by simp [hadv])]
    exact release hr (hadv.1 ▸ hpc) hadv.2
  · have hc : advance = false ∨ x.flags.cancelled := by
      cases advance <;> cases hcan : x.flags.cancelled <;> simp_all
    rw [if_neg (by simpa using hadv)]
    have hm : Moves S st x (.node l.length a) _ := stall hr hpc hc
    simpa using hm

lemma moves_advanceBody (hpc : ∀ advance, job.pc ≠ .finish advance)
    (ha : a.fits (asks S job.node job.pc)) :
    Moves S st x (.node l.length a) (advanceBody S x l.length job a) := by
  unfold advanceBody
  split
  · next fl pc hb =>
    rw [hr, set_split]
    exact body hr hpc ha hb
  · next fl hb =>
    rw [hr, eraseIdx_split]
    exact gone hr hpc ha hb

lemma callOf_node : callOf S x (.node l.length a) = asks S job.node job.pc := by
  have hget : x.running[l.length]? = some job := by rw [hr]; simp
  rw [callOf, hget]
  rfl

end

lemma moves_of_step (h : step S (x, st) e = some (x', st')) :
    Moves S st x e x' ∧ st' = st.after (callOf S x e) e.answer := by
  unfold step at h
  split at h
  case isFalse => cases h
  case isTrue hfit =>
    obtain ⟨y, hy, heq⟩ := Option.map_eq_some_iff.1 h
    obtain ⟨rfl, rfl⟩ := Prod.mk.inj heq
    refine ⟨?_, rfl⟩
    cases e with
    | main a =>
      by_cases hthrown : a = .thrown
      · subst hthrown
        cases hask : mainAsks S x with
        | none =>
          simp only [callOf, hask] at hfit
          cases hfit
        | some c =>
          cases hy
          exact escape hask
      · have hmain : (mainNext S x st).map (fun phase => { x with phase }) = some y := by
          cases a <;> first | exact hy | exact absurd rfl hthrown
        obtain ⟨phase, hphase, rfl⟩ := Option.map_eq_some_iff.1 hmain
        exact main hfit hphase
    | dispatch order =>
      simp only [perform] at hy
      split at hy
      · next hc =>
        cases hy
        exact dispatch hc.1 hc.2
      · cases hy
    | take =>
      simp only [perform] at hy
      split at hy
      · cases hy
      · next id rest hq =>
        split at hy
        · next hw =>
          cases hy
          exact take hq hw
        · cases hy
    | node i a =>
      obtain ⟨job, hjob, hy⟩ := Option.map_eq_some_iff.1 hy
      obtain ⟨l, r, hr, rfl⟩ := split_of_getElem? hjob
      rw [callOf_node hr] at hfit
      split at hy
      · next advance hpc =>
        subst hy
        exact moves_complete hr hpc
      · next hpc =>
        subst hy
        exact moves_advanceBody hr (fun advance hfin => hpc advance hfin) hfit
    | straggler =>
      simp only [perform] at hy
      split at hy
      · cases hy
      · next hd =>
        cases hy
        exact straggler hd

end

/-! ## the books of a run -/

def Phase.over : Phase → Bool
  | .joining | .clearing | .closing | .returned _ | .escaped => true
  | _ => false

/-- the caller has not dispatched anything, or never will -/
def Phase.undispatched : Phase → Bool
  | .waiting | .joining | .clearing | .closing => false
  | _ => true

/-- the nodes of a dispatched run: `done` have released their successors, `lost` had their job
swallowed and are still counted, `stalled` ended and released nothing -/
structure Sched (S : Setup) (x : Exec) (done lost stalled : List String) : Prop where
  frontier : Frontier (deps S.dsl) (ids S.dsl).dedup done x.inDegree
    (x.running.map (·.node.id) ++ x.queue ++ lost ++ stalled)
  counted : x.outstanding = x.running.length + x.queue.length + lost.length

inductive Books (S : Setup) (x : Exec) : List String → List String → List String → Prop
  | fresh (hp : x.phase.undispatched) (hr : x.running = []) (hq : x.queue = [])
      (ho : x.outstanding = 0) (hd : x.inDegree = inDegree S.dsl) : Books S x [] [] []
  | dispatched {done lost stalled}
      (hp : x.phase = .waiting ∨ x.outstanding = 0 ∧ x.phase.over)
      (hs : Sched S x done lost stalled) : Books S x done lost stalled

/-- how a move changes the books: a node is done when its body ends so, a job is lost when an
exception leaves it, a node stalls without success or after a cancellation -/
structure Ledger (S : Setup) (x : Exec) (e : Event) (done lost stalled done' lost' stalled' :
    List String) : Prop where
  done : done' = done ∨ ∃ job ∈ x.running, job.pc = .finish true ∧ done' = job.node.id :: done
  lost : lost' = lost ∨ ∃ job ∈ x.running, callOf S x e = asks S job.node job.pc ∧
    ∃ fl, runBody S job.node x.flags job.pc e.answer = (fl, none)
  stalled : stalled' = stalled ∨ ∃ job ∈ x.running, ∃ advance, job.pc = .finish advance ∧
    (advance = false ∨ x.flags.cancelled)

open Ledger

lemma Ledger.same (S : Setup) (x : Exec) (e : Event) (done lost stalled : List String) :
    Ledger S x e done lost stalled done lost stalled :=
  ⟨.inl rfl, .inl rfl, .inl rfl⟩

section
variable {S : Setup} {st : Store} {x x' : Exec} {e : Event} {done lost stalled : List String}
  {id : String} {r l : List Job} {job : Job} {fl : Flags} {phase : Phase} {order : List String}

lemma byId_spec (h : id ∈ ids S.dsl) : (byId S.dsl id).id = id ∧ byId S.dsl id ∈ S.dsl.nodes := by
  obtain ⟨n, hn, hid⟩ := mem_map.1 h
  have hsome : (S.dsl.nodes.reverse.find? (·.id = id)).isSome := by
    rw [find?_isSome]
    exact ⟨n, mem_reverse.2 hn, by simpa using hid⟩
  obtain ⟨m, hm⟩ := Option.isSome_iff_exists.1 hsome
  have hmid := find?_some hm
  have hmem := mem_of_find?_eq_some hm
  rw [byId, hm, Option.getD_some]
  exact ⟨by simpa using hmid, mem_reverse.1 hmem⟩

lemma mem_ids_of_dedup (h : id ∈ (ids S.dsl).dedup) : id ∈ ids S.dsl :=
  mem_dedup.1 h

section
variable (hs : Sched S x done lost stalled)
include hs

lemma Sched.empty (ho : x.outstanding = 0) : x.running = [] ∧ x.queue = [] ∧ lost = [] := by
  have hc := hs.counted
  refine ⟨?_, ?_, ?_⟩ <;> apply eq_nil_of_length_eq_zero <;> omega

lemma Sched.take {rest : List String} (hq : x.queue = id :: rest) :
    Sched S { x with queue := rest, running := x.running ++ [⟨byId S.dsl id, .start⟩] }
      done lost stalled := by
  have hmem : id ∈ (ids S.dsl).dedup := hs.frontier.mem id (.inl (by simp [hq]))
  have hid := (byId_spec (mem_ids_of_dedup hmem)).1
  refine ⟨?_, ?_⟩
  · have hf := hs.frontier
    rw [hq] at hf
    simpa [hid] using hf
  · have hc := hs.counted
    rw [hq] at hc
    simp only [length_append, length_cons, length_nil] at hc ⊢
    omega

section
variable (hr : x.running = l ++ job :: r)
include hr

lemma Sched.body {pc : Pc} :
    Sched S { x with flags := fl, running := l ++ { job with pc } :: r }
      done lost stalled := by
  refine ⟨?_, ?_⟩
  · have hf := hs.frontier
    rw [hr] at hf
    simpa using hf
  · have hc := hs.counted
    rw [hr] at hc
    simpa using hc

lemma Sched.gone :
    Sched S { x with flags := fl, running := l ++ r } done (job.node.id :: lost) stalled := by
  refine ⟨?_, ?_⟩
  · refine hs.frontier.perm (perm_iff_count.2 fun a => ?_)
    rw [hr]
    simp only [map_append, map_cons, count_append, count_cons]
    omega
  · have hc := hs.counted
    rw [hr] at hc
    simp only [length_append, length_cons] at hc ⊢
    omega

lemma Sched.stall :
    Sched S { x with running := l ++ r, outstanding := x.outstanding - 1 }
      done lost (job.node.id :: stalled) := by
  refine ⟨?_, ?_⟩
  · refine hs.frontier.perm (perm_iff_count.2 fun a => ?_)
    rw [hr]
    simp only [map_append, map_cons, count_append, count_cons]
    omega
  · have hc := hs.counted
    rw [hr] at hc
    simp only [length_append, length_cons] at hc ⊢
    omega

lemma Sched.release :
    Sched S
      { x with running := l ++ r
               inDegree := (release x.inDegree (succ S.dsl job.node.id)).1
               queue := x.queue ++ (release x.inDegree (succ S.dsl job.node.id)).2
               outstanding := x.outstanding
                 + (release x.inDegree (succ S.dsl job.node.id)).2.length - 1 }
      (job.node.id :: done) lost stalled := by
  have hfirst : (x.running.map (·.node.id) ++ x.queue ++ lost ++ stalled).Perm
      (job.node.id :: ((l ++ r).map (·.node.id) ++ x.queue ++ lost ++ stalled)) := by
    refine perm_iff_count.2 fun a => ?_
    rw [hr]
    simp only [map_append, map_cons, count_append, count_cons]
    omega
  have hf := (hs.frontier.perm hfirst).release (count_succ S.dsl) (mem_ids_of_mem_succ S.dsl)
  refine ⟨?_, ?_⟩
  · refine hf.perm (perm_iff_count.2 fun a => ?_)
    simp only [count_append]
    omega
  · have hc := hs.counted
    rw [hr] at hc
    simp only [length_append, length_cons] at hc ⊢
    omega

end

end

lemma preflight_undispatched (S : Setup) : (preflight S).undispatched := by
  unfold preflight
  split
  · rfl
  split
  · rfl
  split
  · rfl
  split <;> rfl

lemma mainNext_undispatched (h : mainNext S x st = some phase)
    (hp : x.phase.undispatched) : phase.undispatched := by
  unfold mainNext at h
  split at h
  case h_1 =>
    cases h
    exact preflight_undispatched S
  case h_2 =>
    cases h
    split <;> rfl
  all_goals first | (cases h; rfl) | (simp_all [Phase.undispatched])

lemma mainNext_over (h : mainNext S x st = some phase)
    (hp : x.phase = .waiting ∨ x.outstanding = 0 ∧ x.phase.over) :
    x.outstanding = 0 ∧ phase.over := by
  unfold mainNext at h
  rcases hp with hp | ⟨ho, hp⟩
  · simp only [hp] at h
    split at h
    · next ho =>
      cases h
      exact ⟨ho, rfl⟩
    · cases h
  · refine ⟨ho, ?_⟩
    split at h <;> simp_all [Phase.over]
    all_goals obtain ⟨-, rfl⟩ := h; rfl

lemma Books.waiting (hb : Books S x done lost stalled) (hne : x.running ≠ [] ∨ x.queue ≠ []) :
    x.phase = .waiting ∧ Sched S x done lost stalled := by
  cases hb with
  | fresh hp hr hq ho hd => exact absurd hne (by simp [hr, hq])
  | dispatched hp hs =>
    rcases hp with hp | ⟨ho, -⟩
    · exact ⟨hp, hs⟩
    · obtain ⟨hr, hq, -⟩ := hs.empty ho
      exact absurd hne (by simp [hr, hq])

lemma Books.running_of_no_nodes (hb : Books S x done lost stalled) (hnodes : S.dsl.nodes = []) :
    x.running = [] := by
  by_contra hne
  obtain ⟨job, hjob⟩ := exists_mem_of_ne_nil _ hne
  have hs := (hb.waiting (.inl hne)).2
  have hat : job.node.id ∈ x.running.map (·.node.id) ++ x.queue ++ lost ++ stalled := by
    simp only [append_assoc, mem_append]
    exact .inl (mem_map_of_mem hjob)
  have hmem := hs.frontier.mem job.node.id (.inl hat)
  simp [ids, hnodes] at hmem

/-- a run that is about to close, with no node stalled, has done every node -/
lemma Books.covered (hb : Books S x done lost []) (hp : x.phase = .closing)
    (hvalid : validateNoCycle S.dsl) : ∀ id ∈ ids S.dsl, id ∈ done := by
  cases hb with
  | fresh hund => simp [hp, Phase.undispatched] at hund
  | dispatched hph hs =>
    have ho : x.outstanding = 0 := by
      rcases hph with hw | ⟨ho, -⟩
      · simp [hp] at hw
      · exact ho
    obtain ⟨hr, hq, rfl⟩ := hs.empty ho
    obtain ⟨W, hord, hW⟩ := validateNoCycle_ordered S.dsl hvalid
    -- nothing is in work, so what is not done still waits for something
    have hcover : ∀ id ∈ W, id ∈ done ∨ 0 < remaining (deps S.dsl) done id := by
      intro id hid
      have hc := hs.frontier.cover id (mem_dedup.2 ((hW id).1 hid))
      simpa [hr, hq] using hc
    intro id hid
    exact hord.subset hcover id ((hW id).2 hid)

section
variable (hb : Books S x done lost stalled)
include hb

lemma Books.main (h : mainNext S x st = some phase) :
    Books S { x with phase } done lost stalled := by
  cases hb with
  | fresh hp hr hq ho hd => exact .fresh (mainNext_undispatched h hp) hr hq ho hd
  | dispatched hp hs =>
    have hover := mainNext_over h hp
    exact .dispatched (.inr hover) ⟨hs.frontier, hs.counted⟩

lemma Books.dispatch (hp : x.phase = .dispatching) (ho : order.Perm (roots S.dsl)) :
    Books S { x with phase := .waiting, queue := order, outstanding := order.length }
      done lost stalled := by
  cases hb with
  | fresh _ hr hq _ hd =>
    refine .dispatched (.inl rfl) ⟨?_, ?_⟩
    · have hf := (frontier_start S.dsl).perm ho.symm
      simpa [hr, hd] using hf
    · simp [hr]
  | dispatched hp' hs => simp [hp, Phase.over] at hp'

lemma Books.flags : Books S { x with flags := fl } done lost stalled := by
  cases hb with
  | fresh hp hr hq ho hd => exact .fresh hp hr hq ho hd
  | dispatched hp hs => exact .dispatched hp ⟨hs.frontier, hs.counted⟩

end

theorem Moves.books (h : Moves S st x e x') (hb : Books S x done lost stalled) :
    ∃ done' lost' stalled', Books S x' done' lost' stalled'
      ∧ Ledger S x e done lost stalled done' lost' stalled' := by
  cases h with
  | main ha h => exact ⟨done, lost, stalled, hb.main h, same ..⟩
  | escape h =>
    refine ⟨done, lost, stalled, ?_, same ..⟩
    cases hb with
    | fresh hp hr hq ho hd => exact .fresh rfl hr hq ho hd
    | dispatched hp hs =>
      rcases hp with hp | ⟨ho, -⟩
      · simp [mainAsks, hp] at h
      · exact .dispatched (.inr ⟨ho, rfl⟩) ⟨hs.frontier, hs.counted⟩
  | dispatch hp ho => exact ⟨done, lost, stalled, hb.dispatch hp ho, same ..⟩
  | take hq hw =>
    obtain ⟨hp, hs⟩ := hb.waiting (.inr (by simp [hq]))
    exact ⟨done, lost, stalled, .dispatched (.inl hp) (hs.take hq), same ..⟩
  | @release l r job a hr hpc hc =>
    obtain ⟨hp, hs⟩ := hb.waiting (.inl (by simp [hr]))
    refine ⟨job.node.id :: done, lost, stalled, .dispatched (.inl hp) (hs.release hr), ?_⟩
    exact ⟨.inr ⟨job, by simp [hr], hpc, rfl⟩, .inl rfl, .inl rfl⟩
  | @stall l r job a advance hr hpc hc =>
    obtain ⟨hp, hs⟩ := hb.waiting (.inl (by simp [hr]))
    refine ⟨done, lost, job.node.id :: stalled, .dispatched (.inl hp) (hs.stall hr), ?_⟩
    exact ⟨.inl rfl, .inl rfl, .inr ⟨job, by simp [hr], advance, hpc, hc⟩⟩
  | @body l r job a fl pc hr hpc ha hb' =>
    obtain ⟨hp, hs⟩ := hb.waiting (.inl (by simp [hr]))
    exact ⟨done, lost, stalled, .dispatched (.inl hp) (hs.body hr), same ..⟩
  | @gone l r job a fl hr hpc ha hb' =>
    obtain ⟨hp, hs⟩ := hb.waiting (.inl (by simp [hr]))
    refine ⟨done, job.node.id :: lost, stalled, .dispatched (.inl hp) (hs.gone hr), ?_⟩
    exact ⟨.inl rfl, .inr ⟨job, by simp [hr], callOf_node hr, fl, hb'⟩, .inl rfl⟩
  | straggler hd => exact ⟨done, lost, stalled, hb.flags, same ..⟩

/-- what holds of every job a worker can take, and of a body that goes on, holds of every job -/
lemma Moves.jobs {J : Job → Prop} (h : Moves S st x e x') (hx : ∀ job ∈ x.running, J job)
    (htake : ∀ id ∈ x.queue, J ⟨byId S.dsl id, .start⟩)
    (hbody : ∀ job ∈ x.running, ∀ fl pc, callOf S x e = asks S job.node job.pc →
      (∀ advance, job.pc ≠ .finish advance) → e.answer.fits (asks S job.node job.pc) →
      runBody S job.node x.flags job.pc e.answer = (fl, some pc) → J { job with pc }) :
    ∀ job ∈ x'.running, J job := by
  cases h with
  | main | escape | dispatch | straggler => exact hx
  | @take id rest hq hw =>
    exact forall_mem_append.2 ⟨hx, forall_mem_singleton.2 (htake id (by simp [hq]))⟩
  | release hr hpc hc | stall hr hpc hc | gone hr hpc ha hb =>
    intro job hjob
    apply hx
    rw [hr]
    exact mem_of_mem_rest _ hjob
  | @body l r job a fl pc hr hpc ha hb =>
    exact forall_mem_replace (hr ▸ hx) (hbody job (by simp [hr]) fl pc (callOf_node hr) hpc ha hb)

lemma mem_nodes_of_queue {x : Exec} {done lost stalled : List String}
    (hb : Books S x done lost stalled) (hid : id ∈ x.queue) :
    (byId S.dsl id).id = id ∧ byId S.dsl id ∈ S.dsl.nodes := by
  have hs := (hb.waiting (.inr (ne_nil_of_mem hid))).2
  have hmem := hs.frontier.mem id (.inl (by simp [hid]))
  exact byId_spec (mem_ids_of_dedup hmem)

end

/-! ## the places of a body -/

/-- the places of a body that belong to a type of node -/
def Typed (n : NodeSpec) : Pc → Prop
  | .askApproval | .approved => n.type = .humanApproval
  | .attempt _ _ | .opening _ | .callTool _ | .toolOk _ _ | .toolFailed _ _ | .deadLetter _ _ =>
    n.type = .tool
  | _ => True

section
variable {S : Setup} {n : NodeSpec} {fl fl' : Flags} {pc pc' : Pc} {a : Answer}

lemma runBody_of_ne (ha : a ≠ .thrown) : runBody S n fl pc a = proceed S n fl a pc := by
  cases a <;> first | rfl | exact absurd rfl ha

lemma proceed_of_runBody (h : runBody S n fl pc a = (fl', some pc')) :
    proceed S n fl a pc = (fl', some pc') := by
  have hne : a ≠ .thrown := by
    rintro rfl
    cases h
  rw [← runBody_of_ne hne]
  exact h

lemma proceed_typed (ht : Typed n pc) (h : proceed S n fl a pc = (fl', some pc')) :
    Typed n pc' := by
  cases pc with
  | start =>
    cases h
    split <;> trivial
  | entered =>
    simp only [proceed] at h
    split at h <;> cases h
    · assumption
    · assumption
    · trivial
  | askApproval =>
    simp only [proceed] at h
    split at h <;> cases h
    · exact ht
    · trivial
  | attempt k err =>
    cases h
    split <;> exact ht
  | callTool k =>
    simp only [proceed] at h
    split at h
    · cases h
    · unfold toolNext at h
      split at h <;> cases h <;> exact ht
  | opening k | toolFailed k err =>
    cases h
    exact ht
  | approved | toolOk k output | deadLetter k err | finish advance =>
    cases h
    trivial

lemma runBody_typed (ht : Typed n pc) (h : runBody S n fl pc a = (fl', some pc')) :
    Typed n pc' := proceed_typed ht (proceed_of_runBody h)

/-- a body stores rows of its node, asks for its approval, or calls its tool -/
lemma asks_cases {c : Call} (h : asks S n pc = some c) :
    (∃ r : NodeRun, c = .upsertNodeRun r ∧ r.nodeId = n.id) ∨
      (c = .approval n ∧ pc = .askApproval ∧ S.hasCallback) ∨
      ∃ k args, c = .execute n.toolId args ∧ pc = .callTool k := by
  cases pc with
  | start | attempt k err | finish advance => cases h
  | entered =>
    simp only [asks] at h
    split at h <;> cases h <;> exact .inl ⟨_, rfl, rfl⟩
  | askApproval =>
    simp only [asks] at h
    split at h <;> cases h
    exact .inr (.inl ⟨rfl, rfl, ‹_›⟩)
  | callTool k =>
    simp only [asks] at h
    split at h
    · cases h
    · split at h <;> cases h
      exact .inr (.inr ⟨k, _, rfl, rfl⟩)
  | _ =>
    cases h
    exact .inl ⟨_, rfl, rfl⟩

lemma asks_nodeId {r : NodeRun} (h : asks S n pc = some (.upsertNodeRun r)) : r.nodeId = n.id := by
  rcases asks_cases h with ⟨_, hc, hid⟩ | ⟨hc, -⟩ | ⟨_, _, hc, -⟩ <;> cases hc
  exact hid

end

end AegisGate.Workflow
