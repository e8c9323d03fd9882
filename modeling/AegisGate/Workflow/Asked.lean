import AegisGate.Workflow.Orphan
import AegisGate.Workflow.ResumeRace

/-!
# The approvals a run asks for

A run whose store and tools succeed, and whose callback pauses it: what its approval nodes do, over
all the calls of `execute` and `resume`.

* `kindly`  these answers;
* `Kind`  where a body can be under them: no tool fails, so a dead letter means a cancellation;
* `Tally`  one call against the nodes asked about so far: each is asked about once, and has a
  record that `resume` counts as done; a run that is marred is paused, and a run is paused
  by a node that was asked about in this call.
-/

namespace AegisGate.Workflow

open List Resuming

/-! ## answers -/

/-- the store and the tools succeed, and the callback pauses the run -/
def kindly : Env where
  may c a :=
    match c with
    | .approval _ => a = .pause true
    | .execute _ _ => ∃ output, a = .tool (.success output)
    | _ => a = .returned
  fits c a h := by
    cases c with
    | execute toolId args =>
      obtain ⟨output, rfl⟩ := h
      rfl
    | _ =>
      cases h
      rfl
  answers c := by
    cases c with
    | approval n => exact ⟨.pause true, rfl⟩
    | execute toolId args => exact ⟨.tool (.success ""), "", rfl⟩
    | _ => exact ⟨.returned, rfl⟩

lemma kindly_respects : kindly.Respects calm := by
  intro c h
  cases c with
  | execute toolId args =>
    obtain ⟨output, hout⟩ := h
    cases hout
  | _ => cases h

def ToolsSucceed (S : Setup) : Prop :=
  ∀ n ∈ S.dsl.nodes, n.type = .tool → S.hasSandbox ∧ (n.arguments.isNull || n.arguments.isObject)

lemma ToolsSucceed.calm {S : Setup} (h : ToolsSucceed S) :
    ∀ n ∈ S.dsl.nodes, CanThrow calm n = false :=
  fun n hn => canThrow_calm fun ht => (h n hn ht).2

/-! ## a body -/

def Kind (n : NodeSpec) (fl : Flags) : Pc → Prop
  | .attempt k _ => k = 1
  | .toolFailed _ _ | .approved => False
  | .deadLetter _ _ => fl.cancelled
  | .finish true => n.type ≠ .humanApproval
  | _ => True

/-- a flag goes up with `paused`, or after a cancellation -/
structure KindMove (n : NodeSpec) (fl fl' : Flags) (pc' : Pc) : Prop where
  kind : Kind n fl' pc'
  cancelled : fl.cancelled → fl'.cancelled
  paused : fl.paused → fl'.paused
  blame : fl'.marred → fl'.paused ∨ fl.marred ∨ fl.cancelled

open KindMove

section
variable {S : Setup} {n : NodeSpec} {fl fl' : Flags} {pc pc' : Pc} {a : Answer}

lemma Kind.mono (h : Kind n fl pc) (hc : fl.cancelled → fl'.cancelled) : Kind n fl' pc := by
  cases pc with
  | deadLetter k err => exact hc h
  | finish advance => cases advance <;> exact h
  | _ => exact h

lemma KindMove.same (h : Kind n fl pc') : KindMove n fl fl pc' := ⟨h, id, id, fun h => .inr (.inl h)⟩

lemma Kind.body (hk : Kind n fl pc) (ht : Typed n pc)
    (htool : n.type = .tool → S.hasSandbox ∧ (n.arguments.isNull || n.arguments.isObject))
    (hfin : ∀ advance, pc ≠ .finish advance)
    (hmay : ∀ c, asks S n pc = some c → kindly.may c a) (ha : a.fits (asks S n pc))
    (h : runBody S n fl pc a = (fl', some pc')) : KindMove n fl fl' pc' := by
  replace h := proceed_of_runBody h
  cases pc with
  | start =>
    cases h
    refine same ?_
    split <;> trivial
  | entered =>
    simp only [proceed] at h
    split at h <;> cases h
    · exact same trivial
    · exact same rfl
    · next hne _ => exact same hne
  | askApproval =>
    have hne : a ≠ .pause false := by
      rintro rfl
      simp only [asks] at hmay ha
      split at ha
      · next hcb =>
        have := hmay (.approval n) (by rw [if_pos hcb])
        cases this
      · cases ha
    simp only [proceed] at h
    cases h
    exact ⟨trivial, fun _ => rfl, fun _ => rfl, fun _ => .inl rfl⟩
  | approved => exact absurd hk id
  | attempt k err =>
    obtain rfl : k = 1 := hk
    cases h
    refine same ?_
    split
    · trivial
    · next hno =>
      have hone := one_le_maxAttempts n
      show fl.cancelled
      by_contra hc
      exact hno ⟨hone, by simpa using hc⟩
  | opening k =>
    cases h
    exact same trivial
  | callTool k =>
    obtain ⟨hbox, hargs⟩ := htool ht
    simp only [proceed] at h
    split at h
    · next err herr =>
      rw [toolArgs_error herr] at hargs
      cases hargs
    · next args hok =>
      obtain ⟨output, rfl⟩ :=
        hmay (.execute n.toolId args) (by simp only [asks, hok, hbox, if_true])
      cases h
      exact same trivial
  | toolOk k output =>
    cases h
    have htype : n.type = .tool := ht
    exact ⟨by simp [Kind, htype], id, id, fun h => .inr (.inl h)⟩
  | toolFailed k err => exact absurd hk id
  | deadLetter k err =>
    cases h
    have hc : fl.cancelled := hk
    exact ⟨trivial, fun _ => by simp [hc], id, fun _ => .inr (.inr hc)⟩
  | finish advance => exact absurd rfl (hfin advance)

end

/-! ## records that count -/

section
variable {st st' : Store} {id : String}

lemma counted_congr (h : st'.nodeRuns = st.nodeRuns) : st'.counted = st.counted := by
  unfold Store.counted
  rw [h]

lemma counted_upsert_ne {r : NodeRun} (hid : id ∈ st.counted) (hne : id ≠ r.nodeId) :
    id ∈ (st.after (some (.upsertNodeRun r)) .returned).counted := by
  obtain ⟨y, hy, rfl, hcounts⟩ := mem_counted.1 hid
  exact mem_counted.2 ⟨y, mem_upsertNodeRun_of_ne hy hne, rfl, hcounts⟩

lemma counted_upsert_self {r : NodeRun} (h : r.counts) :
    r.nodeId ∈ (st.after (some (.upsertNodeRun r)) .returned).counted :=
  mem_counted.2 ⟨r, mem_upsertNodeRun_self r st.nodeRuns, rfl, h⟩

lemma counted_body {S : Setup} {n : NodeSpec} {pc : Pc} {a : Answer} (hid : id ∈ st.counted)
    (hne : id ≠ n.id) : id ∈ (st.after (asks S n pc) a).counted := by
  by_cases hask : ∃ r, asks S n pc = some (.upsertNodeRun r)
  · obtain ⟨r, hr⟩ := hask
    rw [hr]
    cases a with
    | returned =>
      refine counted_upsert_ne hid ?_
      rw [asks_nodeId hr]
      exact hne
    | _ => exact hid
  · rw [counted_congr (nodeRuns_after_of_ne fun r hr => hask ⟨r, hr⟩)]
    exact hid

end

/-! ## one call -/

structure Tally (S : Setup) (x : Exec) (st : Store) (asked stalled : List String) : Prop where
  kind : ∀ job ∈ x.running, Kind job.node x.flags job.pc
  blame : x.flags.marred → x.flags.paused
  source : S.hasCallback → x.flags.paused → ∃ id ∈ asked, id ∈ ids S.dsl
  past : ∀ id ∈ asked, id ∈ ids S.dsl → id ∈ stalled ∨ Working x (· = .finish false) id
  written : ∀ job ∈ x.running, job.pc = .askApproval → job.node.id ∈ st.counted
  counted : ∀ id ∈ asked, id ∈ st.counted
  undone : ∀ n ∈ S.dsl.nodes, n.type = .humanApproval → ¬ Done st n.id
  once : asked.Nodup

section
variable {S : Setup} {x x' : Exec} {st st' : Store} {begun done stalled asked : List String}
  {l r : List Job} {job : Job} {id : String}

lemma tally_init (hcounted : ∀ id ∈ asked, id ∈ st.counted) (hgone : ∀ id ∈ asked, id ∉ ids S.dsl)
    (hundone : ∀ id ∈ ids S.dsl, ¬ Done st id) (honce : asked.Nodup) :
    Tally S { inDegree := inDegree S.dsl } st asked [] where
  kind _ hjob := by cases hjob
  blame h := by cases h
  source _ h := by cases h
  past id hid hmem := absurd hmem (hgone id hid)
  written _ hjob := by cases hjob
  counted := hcounted
  undone n hn _ := hundone n.id (mem_map_of_mem hn)
  once := honce

section
variable (h : Tally S x st asked stalled)
include h

lemma Tally.congr (hr : x'.running = x.running)
    (hc : x'.flags.cancelled = x.flags.cancelled) (hp : x'.flags.paused = x.flags.paused)
    (hm : x'.flags.marred = x.flags.marred) (hst : st'.nodeRuns = st.nodeRuns) :
    Tally S x' st' asked stalled where
  kind job hjob := (h.kind job (hr ▸ hjob)).mono fun h => hc ▸ h
  blame hmarred := hp ▸ h.blame (hm ▸ hmarred)
  source hcb hpaused := h.source hcb (hp ▸ hpaused)
  past id hid hmem := by
    unfold Working
    rw [hr]
    exact h.past id hid hmem
  written job hjob hpc := by
    rw [counted_congr hst]
    exact h.written job (hr ▸ hjob) hpc
  counted id hid := by
    rw [counted_congr hst]
    exact h.counted id hid
  undone n hn ht hdone := h.undone n hn ht ((done_congr hst).1 hdone)
  once := h.once

lemma Tally.take {rest : List String} :
    Tally S { x with queue := rest, running := x.running ++ [⟨byId S.dsl id, .start⟩] } st asked
      stalled where
  kind := forall_mem_append.2 ⟨h.kind, forall_mem_singleton.2 trivial⟩
  blame := h.blame
  source := h.source
  past id hid hmem :=
    (h.past id hid hmem).imp_right (·.mono fun _ hjob => mem_append_left _ hjob)
  written := forall_mem_append.2 ⟨h.written, forall_mem_singleton.2 fun hpc => by cases hpc⟩
  counted := h.counted
  undone := h.undone
  once := h.once

lemma Tally.leave {stalled' : List String} (hr : x.running = l ++ job :: r)
    (hfl : x'.flags = x.flags) (hr' : x'.running = l ++ r)
    (hstalled : ∀ id, id ∈ stalled ∨ id = job.node.id ∧ job.pc = .finish false → id ∈ stalled') :
    Tally S x' st asked stalled' := by
  have hsub := running_of_leave hr hr'
  refine ⟨fun j hj => ?_, ?_, ?_, ?_, fun j hj => h.written j (hsub j hj), h.counted, h.undone, h.once⟩
  · rw [hfl]
    exact h.kind j (hsub j hj)
  · rw [hfl]
    exact h.blame
  · rw [hfl]
    exact h.source
  · intro id hid hmem
    rcases h.past id hid hmem with hs | hw
    · exact .inl (hstalled id (.inl hs))
    · exact (hw.leave hr hr').symm.imp_left fun hjob => hstalled id (.inr hjob)

end

lemma counted_entered {n : NodeSpec} {fl fl' : Flags} {pc : Pc} {a : Answer}
    (ha : a.fits (asks S n pc)) (h : runBody S n fl pc a = (fl', some .askApproval)) :
    n.id ∈ (st.after (asks S n pc) a).counted := by
  have hnext := proceed_of_runBody h
  cases pc with
  | entered =>
    cases hn : n.type with
    | humanApproval =>
      simp only [asks, hn] at ha ⊢
      cases a with
      | returned => exact counted_upsert_self (r := ⟨n.id, 1, .waitingForApproval, "", ""⟩) rfl
      | thrown => cases h
      | _ => cases ha
    | _ =>
      simp only [proceed, hn] at hnext
      cases hnext
  | start | attempt k err | askApproval =>
    simp only [proceed] at hnext
    split at hnext <;> cases hnext
  | callTool k =>
    simp only [proceed] at hnext
    split at hnext
    · cases hnext
    · rcases toolNext_pc hnext with ⟨output, hpc⟩ | ⟨err, hpc⟩ <;> cases hpc
  | _ => cases hnext

lemma Tally.body {a : Answer} {fl : Flags} {pc : Pc} {asked' : List String}
    (h : Tally S x st asked stalled) (hacc : Account S x st begun done stalled)
    (hnodup : (ids S.dsl).Nodup) (hr : x.running = l ++ job :: r)
    (hfin : ∀ advance, job.pc ≠ .finish advance) (ha : a.fits (asks S job.node job.pc))
    (hb : runBody S job.node x.flags job.pc a = (fl, some pc)) (hmove : KindMove job.node x.flags fl pc)
    (hasked : asked' = asked ∧ (S.hasCallback → fl.paused → x.flags.paused) ∨
      asked' = job.node.id :: asked ∧ job.pc = .askApproval ∧ pc = .finish false) :
    Tally S { x with flags := fl, running := l ++ { job with pc } :: r }
      (st.after (asks S job.node job.pc) a) asked' stalled := by
  have hjob : job ∈ x.running := by simp [hr]
  have hnew : ∀ j ∈ l ++ { job with pc } :: r, j ∈ l ++ r ∨ j = { job with pc } :=
    fun j hj => Position.mem_split_cases hj
  have hold : ∀ j ∈ l ++ r, j ∈ x.running := by
    intro j hj
    rw [hr]
    exact Position.mem_of_mem_rest job hj
  have hother := (hacc.books.alone hr).2.2
  have hnot : job.node.id ∉ asked := by
    intro hid
    have hat := h.past job.node.id hid (hacc.mem_ids (by simp [hr]))
    exact hfin false (hacc.books.at_job hr (.inr hat))
  have hkept : ∀ id ∈ asked, id ∈ (st.after (asks S job.node job.pc) a).counted := by
    intro id hid
    refine counted_body (h.counted id hid) ?_
    rintro rfl
    exact hnot hid
  have hpast : ∀ id ∈ asked, id ∈ ids S.dsl → id ∈ stalled ∨
      Working { x with flags := fl, running := l ++ { job with pc } :: r }
        (· = .finish false) id := by
    intro id hid hmem
    exact (h.past id hid hmem).imp_right (·.move hr (absurd · (hfin false)))
  have hkind : ∀ j ∈ l ++ { job with pc } :: r, Kind j.node fl j.pc := by
    intro j hj
    rcases hnew j hj with hj | rfl
    · exact (h.kind j (hold j hj)).mono hmove.cancelled
    · exact hmove.kind
  have hblame : fl.marred → fl.paused := by
    intro hm
    rcases hmove.blame hm with hp | hm | hc
    · exact hp
    · exact hmove.paused (h.blame hm)
    · exact hmove.paused (h.blame (hacc.cancelled hc))
  have hwritten : ∀ j ∈ l ++ { job with pc } :: r, j.pc = .askApproval →
      j.node.id ∈ (st.after (asks S job.node job.pc) a).counted := by
    intro j hj hpc
    rcases hnew j hj with hj | rfl
    · exact counted_body (h.written j (hold j hj) hpc) (hother j hj)
    · obtain rfl : pc = .askApproval := hpc
      exact counted_entered ha hb
  have hundone : ∀ n ∈ S.dsl.nodes, n.type = .humanApproval →
      ¬ Done (st.after (asks S job.node job.pc) a) n.id := by
    intro n hn htype hdone
    rcases (done_body hfin ha hb (hacc.undone hr (hfin true))).1 hdone with hdone | ⟨hid, hpc⟩
    · exact h.undone n hn htype hdone
    · have hsame : n = job.node :=
        inj_on_of_nodup_map hnodup hn (hacc.jobs job hjob).1 hid
      have hkind := hmove.kind
      rw [hpc] at hkind
      exact hkind (hsame ▸ htype)
  rcases hasked with ⟨rfl, hpaused⟩ | ⟨rfl, hpc, rfl⟩
  · exact ⟨hkind, hblame, fun hcb hp => h.source hcb (hpaused hcb hp), hpast, hwritten, hkept, hundone,
      h.once⟩
  · have hask : job.node.id ∈ (st.after (asks S job.node job.pc) a).counted := by
      have hruns : ∀ r', asks S job.node job.pc ≠ some (.upsertNodeRun r') := by
        intro r' hr'
        rw [hpc] at hr'
        simp only [asks] at hr'
        split at hr' <;> cases hr'
      rw [counted_congr (nodeRuns_after_of_ne hruns)]
      exact h.written job hjob hpc
    refine ⟨hkind, hblame, fun _ _ => ⟨job.node.id, mem_cons_self, hacc.mem_ids hjob⟩, ?_,
      hwritten, ?_, hundone, nodup_cons.2 ⟨hnot, h.once⟩⟩
    · intro id hid hmem
      rcases mem_cons.1 hid with rfl | hid
      · exact .inr ⟨{ job with pc := .finish false }, by simp, rfl, rfl⟩
      · exact hpast id hid hmem
    · exact forall_mem_cons.2 ⟨hask, hkept⟩

end

/-! ## its result -/

/-- a call that was let in: the store has its result, which is that the run has succeeded, or is
paused by a node asked about in this call -/
structure Outcome (S : Setup) (st : Store) (asked : List String) (out : WorkflowExecutionResult) :
    Prop where
  stored : ∃ r, st.run = some r ∧ r.status = out.finalStatus
  won : out.ok → out.finalStatus = .succeeded
  paused : S.hasCallback → out.ok = false →
    out.finalStatus = .waitingForApproval ∧ ∃ id ∈ asked, id ∈ ids S.dsl

/-- one `execute` of a run that was first given to `execute` as `D` -/
structure Kept (D S : Setup) (x : Exec) (st : Store) (asked : List String) : Prop where
  wired : S = { D with dsl := S.dsl, context := S.context }
  tools : ToolsSucceed S
  first : S = D ∨ st.run.isSome
  created : x.phase.created → st.run.isSome
  books : ∃ begun done stalled, Account S x st begun done stalled ∧ Tally S x st asked stalled
  stage : Stage S x st
  admitted : ∀ out, x.phase = .returned out → out.ok → preflight S = .creating
  outcome : preflight S = .creating → ∀ out, x.phase = .returned out → Outcome S st asked out

section
variable {D S : Setup} {x x' : Exec} {st st' : Store} {asked : List String} {e : Event}
  {out : WorkflowExecutionResult}

lemma result_status (fl : Flags) :
    (result fl).ok ∧ (result fl).finalStatus = .succeeded ∨ (result fl).ok = false ∧ fl.marred ∧
        (fl.paused → (result fl).finalStatus = .waitingForApproval) := by
  unfold result Flags.marred
  cases fl.paused <;> cases fl.anyFailure <;> simp

lemma closing_of_returned (hstage : Stage S x st) (hpre : preflight S = .creating)
    (hnext : mainNext S x st = some (.returned out)) :
    x.phase = .closing ∧ out = result x.flags := by
  have hon := (preflight_eq_creating_iff.1 hpre).2.1
  unfold mainNext at hnext
  split at hnext
  case h_1 =>
    rw [hpre] at hnext
    cases hnext
  case h_2 hp =>
    rw [hstage.turned (.inl hp)] at hon
    cases hon
  case h_3 hp =>
    rw [hstage.turned (.inr hp)] at hon
    cases hon
  case h_9 hp =>
    cases hnext
    exact ⟨hp, rfl⟩
  case h_6 | h_7 | h_8 => split at hnext <;> cases hnext
  all_goals cases hnext

lemma Kept.admitted_step (h : Kept D S x st asked) (hstep : step S (x, st) e = some (x', st'))
    (hout : x'.phase = .returned out) (hok : out.ok) : preflight S = .creating := by
  by_cases he : ∃ a, e = .main a
  · obtain ⟨a, rfl⟩ := he
    rcases step_main hstep with hesc | ⟨-, -, hnext, -⟩
    · rw [hesc] at hout
      cases hout
    · rw [hout] at hnext
      unfold mainNext at hnext
      split at hnext
      case h_1 =>
        obtain ⟨message, rfl⟩ := preflight_out (Option.some.inj hnext)
        cases hok
      case h_2 =>
        split at hnext <;> cases hnext
        cases hok
      case h_3 =>
        cases hnext
        cases hok
      case h_9 hp => exact h.stage.passed (by rw [hp]; rfl)
      case h_6 | h_7 | h_8 => split at hnext <;> cases hnext
      all_goals cases hnext
  · obtain ⟨hphase, -⟩ := step_other hstep (fun a ha => he ⟨a, ha⟩)
    rcases hphase with hphase | hphase
    · exact h.admitted out (hphase ▸ hout) hok
    · rw [hphase] at hout
      cases hout

lemma Kept.outcome_step (h : Kept D S x st asked) (hstep : step S (x, st) e = some (x', st'))
    (hpre : preflight S = .creating) (hout : x'.phase = .returned out) :
    Outcome S st' asked out := by
  by_cases he : ∃ a, e = .main a
  · obtain ⟨a, rfl⟩ := he
    rcases step_main hstep with hesc | ⟨ha, hfit, hnext, rfl⟩
    · rw [hesc] at hout
      cases hout
    · rw [hout] at hnext
      obtain ⟨hp, rfl⟩ := closing_of_returned h.stage hpre hnext
      obtain ⟨r, hr⟩ := Option.isSome_iff_exists.1 (h.created (by rw [hp]; rfl))
      obtain ⟨begun, done, stalled, hacc, htally⟩ := h.books
      have hafter : st.after (mainAsks S x) a = st.transition (result x.flags).finalStatus := by
        simp only [mainAsks, hp] at hfit ⊢
        exact after_transition hfit ha
      rw [hafter]
      refine ⟨⟨{ r with status := (result x.flags).finalStatus }, ?_, rfl⟩, ?_, ?_⟩
      · rw [transition_run, hr]
        rfl
      · intro hok
        rcases result_status x.flags with ⟨-, hs⟩ | ⟨hno, -⟩
        · exact hs
        · rw [hno] at hok
          cases hok
      · intro hcb hno
        rcases result_status x.flags with ⟨hok, -⟩ | ⟨-, hm, hs⟩
        · rw [hok] at hno
          cases hno
        · have hp := htally.blame hm
          exact ⟨hs hp, htally.source hcb hp⟩
  · obtain ⟨hphase, hrun⟩ := step_other hstep (fun a ha => he ⟨a, ha⟩)
    have hold : x.phase = .returned out := by
      rcases hphase with hphase | hphase
      · rw [← hphase]
        exact hout
      · rw [hphase] at hout
        cases hout
    obtain ⟨⟨r, hr, hs⟩, hwon, hpaused⟩ := h.outcome hpre out hold
    exact ⟨⟨r, hrun.trans hr, hs⟩, hwon, hpaused⟩

lemma Stage.nodup {begun done stalled : List String} (h : Stage S x st)
    (hacc : Account S x st begun done stalled) (hr : x.running ≠ []) : (ids S.dsl).Nodup := by
  have hp := (hacc.books.waiting (.inl hr)).1
  have hpre := h.passed (by rw [hp]; rfl)
  exact validateNoCycle_nodup _ (preflight_eq_creating_iff.1 hpre).2.2.1

section
variable (h : Kept D S x st asked)
include h

section
variable (hallow : kindly.Allows S x e) (hask : (executing S x).asking (.exec e) = none)
  (hstep : step S (x, st) e = some (x', st'))
include hallow hask hstep

lemma Kept.books_step :
    ∃ begun done stalled, Account S x' st' begun done stalled ∧ Tally S x' st' asked stalled := by
  obtain ⟨begun, done, stalled, hacc, htally⟩ := h.books
  obtain ⟨hm, rfl⟩ := moves_of_step hstep
  cases hm with
  | @main a phase ha hnext =>
    have hruns : (st.after (mainAsks S x) a).nodeRuns = st.nodeRuns :=
      nodeRuns_after_of_ne (mainAsks_ne_upsert S x)
    exact ⟨begun, done, stalled, hacc.congr (hacc.books.main hnext) rfl rfl rfl hruns,
      htally.congr rfl rfl rfl rfl hruns⟩
  | escape hcall => exact absurd (hallow _ hcall) kindly_respects.not_thrown
  | dispatch hp ho =>
    exact ⟨begun, done, stalled, hacc.congr (hacc.books.dispatch hp ho) rfl rfl rfl rfl,
      htally.congr rfl rfl rfl rfl rfl⟩
  | take hq hw => exact ⟨begun, done, stalled, hacc.take hq, htally.take⟩
  | @release l r job a hr hpc hc =>
    rw [callOf_node hr, hpc]
    refine ⟨begun, job.node.id :: done, stalled, hacc.release hr hpc, htally.leave hr rfl rfl ?_⟩
    rintro id (hs | ⟨-, hfalse⟩)
    · exact hs
    · rw [hpc] at hfalse
      cases hfalse
  | @stall l r job a advance hr hpc hc =>
    rw [callOf_node hr, hpc]
    refine ⟨begun, done, job.node.id :: stalled, hacc.stall hr hpc hc, htally.leave hr rfl rfl ?_⟩
    rintro id (hs | ⟨rfl, -⟩)
    · exact mem_cons_of_mem _ hs
    · exact mem_cons_self
  | @body l r job a fl pc hr hpc ha hb =>
    have hjob : job ∈ x.running := by simp [hr]
    have hmay : ∀ c, asks S job.node job.pc = some c → kindly.may c a := by
      intro c hc
      rw [← callOf_node (a := a) hr] at hc
      exact hallow c hc
    have hmove : KindMove job.node x.flags fl pc :=
      (htally.kind job hjob).body (hacc.jobs job hjob).2 (h.tools job.node (hacc.jobs job hjob).1)
        hpc hmay ha hb
    have hnodup := h.stage.nodup hacc (ne_nil_of_mem hjob)
    have hpaused : S.hasCallback → fl.paused → x.flags.paused := by
      intro hcb hp
      have heq := paused_of_plain hcb hask hstep
      exact heq ▸ hp
    rw [callOf_node hr]
    exact ⟨_, done, stalled, hacc.body hr hpc ha hb,
      htally.body hacc hnodup hr hpc ha hb hmove (.inl ⟨rfl, hpaused⟩)⟩
  | gone hr hpc ha hb =>
    exact absurd hb (hacc.not_gone kindly_respects h.tools.calm hr ha hallow)
  | straggler hd =>
    exact ⟨begun, done, stalled, hacc.congr hacc.books.flags rfl rfl rfl rfl,
      htally.congr rfl rfl rfl rfl rfl⟩

lemma Kept.plain : Kept D S x' st' asked := by
  obtain ⟨begun, done, stalled, hacc, htally⟩ := h.books
  refine ⟨h.wired, h.tools, h.first.imp_right fun hrun => ?_, created_of_step hstep h.created,
    h.books_step hallow hask hstep, h.stage.step kindly_respects hacc hallow hstep,
    fun out hout hok => h.admitted_step hstep hout hok,
    fun hpre out hout => h.outcome_step hstep hpre hout⟩
  obtain ⟨-, rfl⟩ := moves_of_step hstep
  exact isSome_run_after hrun

end

lemma Kept.ask {l r : List Job} {job : Job} (hr : x.running = l ++ job :: r)
    (hpc : job.pc = .askApproval) (hcb : S.hasCallback)
    (hstep : step S (x, st) (.node l.length (.pause true)) = some (x', st))
    (hx : x' = { x with flags := { x.flags with paused := true, cancelled := true }
                        running := l ++ { job with pc := .finish false } :: r }) :
    Kept D S x' st (job.node.id :: asked) := by
  obtain ⟨begun, done, stalled, hacc, htally⟩ := h.books
  have hjob : job ∈ x.running := by simp [hr]
  have hasks := asks_askApproval hpc hcb
  have hallow : kindly.Allows S x (.node l.length (.pause true)) := by
    intro c hc
    rw [callOf_node hr, hasks] at hc
    cases hc
    rfl
  have hb := runBody_pause hpc S x.flags
  have hfin : ∀ advance, job.pc ≠ .finish advance := by
    rw [hpc]
    simp
  have hfits : Answer.fits (asks S job.node job.pc) (.pause true) := by
    rw [hasks]
    rfl
  have hmove : KindMove job.node x.flags { x.flags with paused := true, cancelled := true }
      (.finish false) := ⟨trivial, fun _ => rfl, fun _ => rfl, fun _ => .inl rfl⟩
  have hnodup := h.stage.nodup hacc (ne_nil_of_mem hjob)
  have hphase : x'.phase = .waiting := by
    rw [hx]
    exact (hacc.books.waiting (.inl (ne_nil_of_mem hjob))).1
  have hst : st.after (asks S job.node job.pc) (.pause true) = st := by
    rw [hasks]
    rfl
  have hacc' := hacc.body hr hfin hfits hb
  have htally' := htally.body hacc hnodup hr hfin hfits hb hmove (.inr ⟨rfl, hpc, rfl⟩)
  rw [hst, ← hx] at hacc' htally'
  refine ⟨h.wired, h.tools, h.first, created_of_step hstep h.created,
    ⟨_, done, stalled, hacc', htally'⟩, h.stage.step kindly_respects hacc hallow hstep,
    fun out hout => ?_, fun _ out hout => ?_⟩
  all_goals
    rw [hphase] at hout
    cases hout

end

end

/-! ## all the calls on a run -/

def PlaceKept (D : Setup) (st : Store) (asked : List String) : Resuming → Prop
  | .executing S x => Kept D S x st asked
  | .marking _ _ _ done => ∀ id ∈ asked, id ∈ st.counted ∧ id ∈ done
  | _ => ∀ id ∈ asked, id ∈ st.counted

structure Engine {τ : Type} (D : Desk τ) (w : World τ) (q : Resuming) : Prop where
  session : ∃ begun, SessionOk D.setup.dsl ⟨D.setup, q, w.store, begun⟩
  stores : D.Stores w.store
  place : PlaceKept D.setup w.store (w.asked.map Prod.fst) q
  nodes : ∀ a ∈ w.asked, ∃ n ∈ D.setup.dsl.nodes, n.id = a.1 ∧ n.type = .humanApproval
  once : (w.asked.map Prod.fst).Nodup
  admitted : w.store.run.isSome → preflight D.setup = .creating
  begun : w.asked ≠ [] → w.store.run.isSome ∧ D.setup.hasCallback

section
variable {τ : Type} {D : Desk τ} {w w' : World τ} {q q' : Resuming} {e : CallEvent}
  {st st' : Store} {asked : List String} {S : Setup} {r : RunRecord} {x x' : Exec}
  {out : WorkflowExecutionResult} {context : Json} {amb : Autonomy.Ambient} {dsl : WorkflowDsl}

lemma phase_of_out (h : (executing S x).out = some out) : x.phase = .returned out := by
  simp only [Resuming.out] at h
  split at h
  · next out' hp =>
    cases h
    exact hp
  · cases h

lemma PlaceKept.counted (h : PlaceKept D.setup st asked q) : ∀ id ∈ asked, id ∈ st.counted := by
  cases q with
  | executing S x =>
    obtain ⟨begun, done, stalled, -, htally⟩ := Kept.books h
    exact htally.counted
  | marking dsl context todo done => exact fun id hid => (h id hid).1
  | _ => exact h

lemma toolsSucceed_trim {gone : List String} (h : ToolsSucceed D.setup)
    (hnodes : dsl.nodes = D.setup.dsl.nodes) :
    ToolsSucceed (reentered D.setup dsl context gone) := by
  intro n hn ht
  obtain ⟨m, hm, rfl⟩ := mem_map.1 hn
  rw [hnodes] at hm
  exact h m (mem_filter.1 hm).1 ht

section
variable (htools : ToolsSucceed D.setup)
include htools

lemma kept_entering {done : List String}
    (hsound : PlaceSound D.setup.dsl st [] (.marking dsl context [] done))
    (h : PlaceKept D.setup st asked (.marking dsl context [] done)) (honce : asked.Nodup) :
    PlaceKept D.setup (st.transition .running) asked
      (entering (reentered D.setup dsl context done)) := by
  obtain ⟨hnodes, hrun, -, -, honly⟩ := hsound
  have hrun' : (st.transition .running).run.isSome := isSome_run_after hrun
  have hundone : ∀ id ∈ ids (reentered D.setup dsl context done).dsl,
      ¬ Done (st.transition .running) id :=
    fun id hid hdone => notMem_of_mem_trim hid (honly id hdone)
  refine ⟨rfl, toolsSucceed_trim htools hnodes, .inr hrun', fun _ => hrun',
    ⟨[], [], [], account_init _ _ hundone, tally_init ?_ ?_ hundone honce⟩, stage_init _ _,
    nofun, nofun⟩
  · exact fun id hid => (h id hid).1
  · exact fun id hid hmem => notMem_of_mem_trim hmem (h id hid).2

lemma PlaceKept.resumed (hsound : PlaceSound D.setup.dsl st [] q)
    (h : PlaceKept D.setup st asked q) (honce : asked.Nodup) (hq : ∀ S x, q ≠ .executing S x)
    (hstep : Advances D.setup st q .returned q' st') : PlaceKept D.setup st' asked q' := by
  cases hstep with
  | checked =>
    rcases checked_cases D.setup st with ⟨out, hc, -⟩ | hc | ⟨dsl, context, hc, -⟩ <;> rw [hc]
    all_goals exact h
  | failed => exact h
  | listed => exact fun id hid => ⟨h id hid, h id hid⟩
  | @marked dsl context r todo done =>
    intro id hid
    refine ⟨?_, (h id hid).2⟩
    by_cases hid' : id = r.nodeId
    · rw [hid']
      exact counted_upsert_self (r := { r with status := .succeeded }) rfl
    · exact counted_upsert_ne (h id hid).1 hid'
  | reenters => exact kept_entering htools hsound h honce

lemma engine_start (shared : Autonomy.Shared τ) : Engine D { shared } (entering D.setup) := by
  have hnone : ∀ id ∈ ids D.setup.dsl, ¬ Done {} id := by
    rintro id - ⟨r, hr, -⟩
    cases hr
  refine ⟨⟨[], SessionOk.start D.setup⟩, nofun, ?_, nofun, nodup_nil, nofun, fun h => absurd rfl h⟩
  exact ⟨rfl, htools, .inl rfl, nofun, ⟨[], [], [], account_init _ _ hnone,
    tally_init nofun nofun hnone nodup_nil⟩, stage_init _ _, nofun, nofun⟩

end

lemma Kept.run_cases {e : Event} (h : Kept D.setup S x st asked)
    (hstep : step S (x, st) e = some (x', st')) (hr : st'.run = some r) :
    (∃ r', st.run = some r' ∧ r.dslJson = r'.dslJson ∧ r.dslHash = r'.dslHash) ∨
      r = runRecord D.setup ∧ preflight D.setup = .creating := by
  obtain ⟨-, rfl⟩ := moves_of_step hstep
  rcases run_after hr with hold | ⟨hnone, hcall⟩
  · exact .inl hold
  · obtain ⟨hrecord, hphase⟩ := callOf_createRun hcall
    have hpre := h.stage.passed (by rw [hphase]; rfl)
    rcases h.first with rfl | hsome
    · exact .inr ⟨hrecord, hpre⟩
    · rw [hnone] at hsome
      cases hsome

lemma Advances.run_kept (h : Advances D.setup st q .returned q' st') (hr : st'.run = some r) :
    ∃ r', st.run = some r' ∧ r.dslJson = r'.dslJson ∧ r.dslHash = r'.dslHash := by
  cases h with
  | checked | listed => exact ⟨r, hr, rfl, rfl⟩
  | failed | marked | reenters => exact (run_after hr).resolve_right (fun h => by cases h.2)

lemma Engine.run_step (h : Engine D w q) (hallow : q.Allows kindly e)
    (hstep : callStep D.setup (q, w.store) e = some (q', st)) (hr : st.run = some r) :
    (∃ r', w.store.run = some r' ∧ r.dslJson = r'.dslJson ∧ r.dslHash = r'.dslHash) ∨
      r = runRecord D.setup ∧ preflight D.setup = .creating := by
  have hadv := advances_of_step hstep
  cases e with
  | thrown => cases q <;> exact absurd hallow id
  | returned => exact .inl (hadv.run_kept hr)
  | exec e =>
    cases hadv with
    | exec hx =>
      have hkept : Kept D.setup _ _ w.store (w.asked.map Prod.fst) := h.place
      exact hkept.run_cases hx hr

section
variable (htools : ToolsSucceed D.setup)
include htools

section
variable (h : Engine D w q) (hallow : q.Allows kindly e) (hask : q.asking e = none)
  (hstep : callStep D.setup (q, w.store) e = some (q', st))
include h hallow hask hstep

lemma Engine.place_step : PlaceKept D.setup st (w.asked.map Prod.fst) q' := by
  obtain ⟨begun, hsession⟩ := h.session
  have hadv := advances_of_step hstep
  cases e with
  | thrown => cases q <;> exact absurd hallow id
  | returned =>
    have hq : ∀ S x, q ≠ .executing S x := by
      rintro S x rfl
      cases hstep
    have hidle : begun = [] := hsession.idle hq
    have hsound : PlaceSound D.setup.dsl w.store begun q := hsession.place
    rw [hidle] at hsound
    exact h.place.resumed htools hsound h.once hq hadv
  | exec e =>
    cases hadv with
    | exec hx =>
      have hkept : Kept D.setup _ _ w.store (w.asked.map Prod.fst) := h.place
      exact hkept.plain hallow hask hx

lemma Engine.plain : Engine D { w with store := st } q' := by
  obtain ⟨begun, hsession⟩ := h.session
  have hnext : SessionStep kindly ⟨D.setup, q, w.store, begun⟩
      ⟨D.setup, q', st, (q.begins e).toList ++ begun⟩ := by
    refine ⟨.call e, hallow, ?_⟩
    show (callStep D.setup (q, w.store) e).map _ = _
    rw [hstep]
    rfl
  have hplace := h.place_step htools hallow hask hstep
  refine ⟨⟨_, hsession.step kindly_respects htools.calm hnext⟩, fun r hr => ?_, hplace, h.nodes,
    h.once, fun hrun => ?_, fun hne => ⟨?_, ?_⟩⟩
  · rcases h.run_step hallow hstep hr with ⟨r', hr', hjson, hhash⟩ | ⟨rfl, -⟩
    · rw [hjson, hhash]
      exact h.stores r' hr'
    · exact ⟨rfl, rfl⟩
  · obtain ⟨r, hr⟩ := Option.isSome_iff_exists.1 hrun
    rcases h.run_step hallow hstep hr with ⟨r', hr', -⟩ | ⟨-, hpre⟩
    · exact h.admitted (by rw [hr']; rfl)
    · exact hpre
  · exact (advances_of_step hstep).run_isSome (h.begun hne).1
  · exact (h.begun hne).2

end

lemma Engine.ask {l r : List Job} {job : Job} (h : Engine D w (.executing S x))
    (hr : x.running = l ++ job :: r) (hpc : job.pc = .askApproval) (hcb : S.hasCallback)
    (hstep : step S (x, w.store) (.node l.length (.pause true)) = some (x', w.store))
    (hx : x' = { x with flags := { x.flags with paused := true, cancelled := true }
                        running := l ++ { job with pc := .finish false } :: r }) :
    Engine D (w.enqueued D amb job.node S.context) (.executing S x') := by
  obtain ⟨begun, hsession⟩ := h.session
  have hkept : Kept D.setup S x w.store (w.asked.map Prod.fst) := h.place
  obtain ⟨begun', done, stalled, hacc, -⟩ := hkept.books
  have hjob : job ∈ x.running := by simp [hr]
  have hallow : (executing S x).Allows kindly (.exec (.node l.length (.pause true))) := by
    intro c hc
    rw [callOf_node hr, asks_askApproval hpc hcb] at hc
    cases hc
    rfl
  have hnext : SessionStep kindly ⟨D.setup, .executing S x, w.store, begun⟩
      ⟨D.setup, .executing S x', w.store,
        ((executing S x).begins (.exec (.node l.length (.pause true)))).toList ++ begun⟩ := by
    refine ⟨.call (.exec (.node l.length (.pause true))), hallow, ?_⟩
    show ((step S (x, w.store) _).map _).map _ = _
    rw [hstep]
    rfl
  have hrun : w.store.run.isSome := by
    refine hkept.created ?_
    rw [(hacc.books.waiting (.inl (ne_nil_of_mem hjob))).1]
    rfl
  have hkept' := hkept.ask hr hpc hcb hstep hx
  obtain ⟨_, _, _, -, htally⟩ := hkept'.books
  refine ⟨⟨_, hsession.step kindly_respects htools.calm hnext⟩, h.stores, hkept', ?_, htally.once,
    h.admitted, fun _ => ⟨hrun, ?_⟩⟩
  · intro a ha
    rcases mem_cons.1 ha with rfl | ha
    · obtain ⟨hmem, htyped⟩ := hacc.jobs job hjob
      rw [hpc] at htyped
      obtain ⟨-, ⟨gone, -, hnodes⟩, -⟩ := hsession.place
      rw [hnodes] at hmem
      obtain ⟨n, hn, heq⟩ := mem_map.1 hmem
      refine ⟨n, (mem_filter.1 hn).1, ?_, ?_⟩
      · rw [← heq]
      · rw [← htyped, ← heq]
    · exact h.nodes a ha
  · rw [hkept.wired] at hcb
    exact hcb

lemma Engine.step (h : Engine D w q)
    (hallow : q.Allows kindly e) (hm : EngineMoves D w q e amb w' q') : Engine D w' q' := by
  cases hm with
  | plain hask hstep => exact h.plain htools hallow hask hstep
  | asks hr hpc hcb hstep hx => exact h.ask htools hr hpc hcb hstep hx

lemma Engine.again (h : Engine D w q) (hout : q.out.isSome) : Engine D w .getting := by
  obtain ⟨begun, hsession⟩ := h.session
  have hnext : SessionStep kindly ⟨D.setup, q, w.store, begun⟩ ⟨D.setup, .getting, w.store, []⟩ := by
    refine ⟨.again D.setup.activeRuns D.setup.autonomyEnabled, trivial, ?_⟩
    simp only [sessionStep, hout, if_true]
  exact ⟨⟨[], hsession.step kindly_respects htools.calm hnext⟩, h.stores, h.place.counted, h.nodes,
    h.once, h.admitted, h.begun⟩

end

lemma Engine.congr (h : Engine D w q) (hstore : w'.store = w.store) (hasked : w'.asked = w.asked) :
    Engine D w' q := by
  obtain ⟨hsession, hstores, hplace, hnodes, honce, hadm, hbegun⟩ := h
  rw [← hstore] at hsession hstores hplace hadm hbegun
  rw [← hasked] at hplace hnodes honce hbegun
  exact ⟨hsession, hstores, hplace, hnodes, honce, hadm, hbegun⟩

/-! ## what follows -/

def Store.Succeeded (st : Store) : Prop := ∃ r, st.run = some r ∧ r.status = .succeeded

/-- a call that has not returned takes a step -/
lemma Engine.progress (h : Engine D w q) (hout : q.out = none) :
    ∃ e t, q.Allows kindly e ∧ callStep D.setup (q, w.store) e = some t := by
  obtain ⟨begun, hsession⟩ := h.session
  by_contra hno
  have hstuck : Run.Stuck (CallStep kindly D.setup) (q, w.store) :=
    fun t ⟨e, hallow, hstep⟩ => hno ⟨e, t, hallow, hstep⟩
  obtain ⟨out, hsome⟩ := hsession.returned hstuck
  rw [hout] at hsome
  cases hsome

lemma Engine.succeeded (h : Engine D w q) (hout : q.out = some out) (hok : out.ok) :
    w.store.Succeeded := by
  obtain ⟨begun, hsession⟩ := h.session
  cases q with
  | refused out' =>
    cases hout
    have hno : out.ok = false := hsession.place
    rw [hno] at hok
    cases hok
  | executing S x =>
    have hkept : Kept D.setup S x w.store (w.asked.map Prod.fst) := h.place
    have hp : x.phase = .returned out := phase_of_out hout
    have hpre := hkept.admitted out hp hok
    obtain ⟨⟨r, hr, hs⟩, hwon, -⟩ := hkept.outcome hpre out hp
    exact ⟨r, hr, hs.trans (hwon hok)⟩
  | _ => cases hout

end

end AegisGate.Workflow
