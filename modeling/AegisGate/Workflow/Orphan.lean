import AegisGate.Autonomy.ApprovalRace
import AegisGate.Workflow.Review

/-!
# Paused runs and their open proposals

A paused run goes on when one of its proposals is applied.  The callback enqueues the proposal before
`execute` stores `WaitingForApproval`, so an `apply` can come too early: its `resume` finds the run
still running, the proposal is rolled back, and the run is then stored as paused with nothing left to
apply (`paused_run_orphaned`).

* `Desk.Sound`  proposals are accepted and pass the checks of the applier, the workflow reads back;
* `Spent`  a reviewer's call that will close this proposal without another look at the run.

The invariant is `Unorphaned`: while the run is stored as paused, or a pause is on its way to the
store, it is backed.
-/

namespace AegisGate.Workflow

open Autonomy Option Workflow.Task Json
open List

/-! ## open proposals -/

def Open (p : ApprovalProposal) : Prop := p.state = .proposed ∨ p.state = .approved

def Store.Waiting (st : Store) : Prop :=
  ∃ r, st.run = some r ∧ r.status = .waitingForApproval

section
variable {τ : Type} (D : Desk τ)

def Desk.Names (p : ApprovalProposal) : Prop :=
  p.source = .workflow ∧ p.payload.find? "run_id" = some (.str D.setup.runId)

def Desk.Passes (p : ApprovalProposal) : Prop :=
  ∃ v, RunPayload.extract p = .ok (.ok v) ∧ v.runId = D.setup.runId ∧
    (v.dslHash = "" ∨ v.dslHash = D.dslHash)

/-- autonomy is on, the workflow reads back from the store, and what the handler proposes arrives -/
structure Desk.Sound : Prop where
  callback : D.setup.hasCallback
  enabled : D.enabled
  env : isAutonomyEnabled D.env
  ids : ∀ n ∈ D.setup.dsl.nodes, n.id ≠ ""
  delivered : ∀ n ∈ D.setup.dsl.nodes, n.type = .humanApproval →
    Deliverable D.piiFilter D.deps.digest.sha256 D.setup.runId D.dslHash n.id

/-- a `resume` looks at the run only when no `execute` or `resume` is under way, and ids of new
proposals are unused -/
def Orderly (s : System τ) : SystemEvent → Prop
  | .begin _ => True
  | .step i e amb => ∀ t, s.tasks[i]? = some t →
    (t.place = some .getting → ∀ u ∈ s.tasks, u.busy = false) ∧
      ∀ q, t.place = some q → (q.asking e).isSome → Unused s.world.shared.queue amb.ulid

def OrderlyStep (s t : System τ) : Prop := ∃ ev, Orderly s ev ∧ systemStep D s ev = some t

end

section
variable {τ : Type} {D : Desk τ} {p p' : ApprovalProposal}

lemma find_of_valueStr {j : Json} {k d v : String} (h : j.valueStr k d = .ok v) (hne : v ≠ d) :
    j.find? k = some (.str v) := by
  cases j with
  | obj l =>
    simp only [valueStr] at h
    split at h
    · cases h
      exact absurd rfl hne
    · next s hs =>
      cases h
      exact hs
    · cases h
  | _ => cases h

lemma Desk.Passes.congr (hp : D.Passes p) (h : p'.payload = p.payload) : D.Passes p' := by
  obtain ⟨v, hv, hrest⟩ := hp
  unfold RunPayload.extract at hv
  rw [← h] at hv
  exact ⟨v, hv, hrest⟩

lemma Desk.Passes.find (hp : D.Passes p) :
    p.payload.find? "run_id" = some (.str D.setup.runId) := by
  obtain ⟨v, hv, hid, -⟩ := hp
  unfold RunPayload.extract at hv
  split at hv
  · cases hv
  · obtain ⟨runId, hread, hv⟩ := bind_eq_ok hv
    obtain ⟨nodeId, -, hv⟩ := bind_eq_ok hv
    obtain ⟨dslHash, -, hv⟩ := bind_eq_ok hv
    split at hv
    · cases hv
    · next hne =>
      cases hv
      have hrunId : runId = D.setup.runId := hid
      rw [← hrunId]
      exact find_of_valueStr hread fun h => hne (.inl h)

lemma Desk.Passes.check {st : Store} (hp : D.Passes p)
    (henv : isAutonomyEnabled D.env) (hrun : st.run.isSome)
    (hstored : ∀ r, st.run = some r → r.dslHash = D.dslHash) : D.applierCheck st p = none := by
  obtain ⟨v, hv, hid, hhash⟩ := hp
  obtain ⟨r, hr⟩ := isSome_iff_exists.1 hrun
  have hmap : st.run.map (·.dslHash) = some D.dslHash := by
    rw [hr, map_some, hstored r hr]
  have hno : ¬ (v.dslHash ≠ "" ∧ v.dslHash ≠ D.dslHash) := by
    rintro ⟨hne, hne'⟩
    exact hhash.elim hne hne'
  unfold Desk.applierCheck
  simp only [henv, Bool.not_true, Bool.false_eq_true, if_false, hv, Desk.runHash, hid, if_true, hmap,
    if_neg hno]

lemma passes_proposal {amb : Ambient} {node : NodeSpec} {context : Json}
    (h : Deliverable D.piiFilter D.deps.digest.sha256 D.setup.runId D.dslHash node.id) :
    D.Passes (D.proposal amb node context) := by
  have hno : ¬ (scrubStr D.piiFilter D.setup.runId = "" ∨ scrubStr D.piiFilter node.id = "") := by
    rw [h.run]
    rintro (hrun | hnode)
    · exact h.named hrun
    · exact h.node hnode
  refine ⟨_, (extract_approvalPayload (proposal_payload D amb node context)).trans (if_neg hno),
    h.run, h.hash⟩

end

/-! ## the engine in one call -/

/-- the run is created: `execute` is past `createRun`, and has not returned -/
def Phase.created : Phase → Bool
  | .starting | .dispatching | .waiting | .joining | .clearing | .closing => true
  | _ => false

/-- what holds at each place of a call, whatever the store and the tools answer -/
def PlaceFit {τ : Type} (D : Desk τ) (st : Store) : Resuming → Prop
  | .listing dsl _ => dsl.nodes = D.setup.dsl.nodes ∧ st.run.isSome
  | .marking dsl _ _ _ => dsl.nodes = D.setup.dsl.nodes ∧ st.run.isSome
  | .executing S x => RunOk D.setup.dsl (ids D.setup.dsl) S x ∧ S.hasCallback ∧
      (S = D.setup ∨ st.run.isSome) ∧ (x.phase.created → st.run.isSome)
  | _ => True

section
variable {dsl : WorkflowDsl} {S : Setup} {st st' : Store} {x x' : Exec} {e : Event} {a : Answer}
  {applied : List String}

lemma isApproval_mem {id : String} (h : isApproval dsl id) : id ∈ ids dsl := by
  by_contra hno
  have hfind : dsl.nodes.reverse.find? (·.id = id) = none := by
    rw [find?_eq_none]
    intro n hn heq
    refine hno (mem_map.2 ⟨n, mem_reverse.1 hn, ?_⟩)
    simpa using heq
  rw [isApproval, byId, hfind] at h
  cases h

lemma released_all (dsl : WorkflowDsl) (id : String) : Released dsl (ids dsl) id :=
  ⟨fun _ h _ => isApproval_mem h, isApproval_mem⟩

lemma runOk_init (S : Setup) (gone : List String) (h : S.dsl.nodes = (trim dsl gone).nodes) :
    RunOk dsl (ids dsl) S { inDegree := inDegree S.dsl } where
  trimmed := ⟨gone, fun id _ => released_all dsl id, h⟩
  books := ⟨[], [], [], .fresh rfl rfl rfl rfl rfl, nofun⟩
  jobs _ h := by cases h

lemma RunOk.waiting (h : RunOk dsl applied S x) (hr : x.running ≠ []) : x.phase = .waiting := by
  obtain ⟨done, lost, stalled, hb, -⟩ := h.books
  exact (hb.waiting (.inl hr)).1

lemma RunOk.approval_node {S0 : Setup} {job : Job} (h : RunOk S0.dsl applied S x)
    (hjob : job ∈ x.running) (htype : job.node.type = .humanApproval) :
    ∃ n ∈ S0.dsl.nodes, n.id = job.node.id ∧ n.type = .humanApproval := by
  have happ : isApproval S0.dsl job.node.id := (h.node_type hjob).symm.trans htype
  obtain ⟨hid, hmem⟩ := byId_spec (S := S0) (isApproval_mem happ)
  exact ⟨byId S0.dsl job.node.id, hmem, hid, happ⟩

lemma runBody_paused {n : NodeSpec} {fl fl' : Flags} {pc : Pc} {o : Option Pc}
    (hpc : pc ≠ .askApproval) (h : runBody S n fl pc a = (fl', o)) : fl'.paused = fl.paused := by
  by_cases ha : a = .thrown
  · subst ha
    cases h
    rfl
  rw [runBody_of_ne ha] at h
  cases pc with
  | askApproval => exact absurd rfl hpc
  | entered =>
    simp only [proceed] at h
    split at h <;> cases h <;> rfl
  | callTool k =>
    simp only [proceed] at h
    split at h
    · cases h
      rfl
    · unfold toolNext at h
      split at h <;> cases h <;> rfl
  | _ =>
    cases h
    rfl

lemma waiting_of_step (h : step S (x, st) e = some (x', st')) (hw : st'.Waiting) :
    st.Waiting ∨ x.phase = .closing ∧ x.flags.paused := by
  obtain ⟨-, rfl⟩ := moves_of_step h
  cases e with
  | main a =>
    have htransition : ∀ status, (st.after (some (.transitionRunStatus status)) a).Waiting →
        st.Waiting ∨ status = .waitingForApproval := by
      rintro status ⟨r, hr, hst⟩
      cases a with
      | returned => exact .inr ((transition_status hr).symm.trans hst)
      | _ => exact .inl ⟨r, hr, hst⟩
    simp only [callOf, mainAsks, Event.answer] at hw
    split at hw
    · exact .inl (by cases a <;> exact hw)
    · exact (htransition _ hw).imp_right (by intro h; cases h)
    · obtain ⟨r, hr, hst⟩ := hw
      cases a with
      | returned =>
        rcases or_eq_some_iff.1 hr with hr | ⟨-, hr⟩
        · exact .inl ⟨r, hr, hst⟩
        · cases hr
          cases hst
      | _ => exact .inl ⟨r, hr, hst⟩
    · exact (htransition _ hw).imp_right (by intro h; cases h)
    · next hp =>
      refine (htransition _ hw).imp_right fun hresult => ⟨hp, ?_⟩
      unfold result at hresult
      split at hresult
      · assumption
      · split at hresult <;> cases hresult
    · exact .inl (by cases a <;> exact hw)
  | node i a =>
    left
    obtain ⟨r, hr, hst⟩ := hw
    simp only [callOf] at hr
    cases hjob : x.running[i]? with
    | none =>
      rw [hjob] at hr
      exact ⟨r, hr, hst⟩
    | some job =>
      rw [hjob, bind_some, run_after_asks] at hr
      exact ⟨r, hr, hst⟩
  | dispatch order | take | straggler => exact .inl hw

lemma not_ended_of_step (h : step S (x, st) e = some (x', st')) (hp : x'.phase.ended = false) :
    x.phase.ended = false := by
  obtain ⟨hm, -⟩ := moves_of_step h
  cases hm with
  | main ha hnext =>
    cases hphase : x.phase <;> simp [hphase, Phase.ended, mainNext] at hnext ⊢
  | escape hask => cases hp
  | dispatch hd =>
    rw [hd]
    rfl
  | _ => exact hp

lemma paused_of_plain (hcb : S.hasCallback)
    (hask : (Resuming.executing S x).asking (.exec e) = none)
    (h : step S (x, st) e = some (x', st')) : x'.flags.paused = x.flags.paused := by
  obtain ⟨hm, -⟩ := moves_of_step h
  have hnot : ∀ {l r : List Job} {job : Job} {a : Answer}, x.running = l ++ job :: r →
      e = .node l.length a → job.pc ≠ .askApproval := by
    rintro l r job a hr rfl hpc
    rw [asking_askApproval hr hpc hcb] at hask
    cases hask
  cases hm with
  | body hr hpc ha hb | gone hr hpc ha hb => exact runBody_paused (hnot hr rfl) hb
  | _ => rfl

lemma answer_of_plain (hask : (Resuming.executing S x).asking (.exec e) = none)
    (h : step S (x, st) e = some (x', st')) : e.answer ≠ .pause false := by
  intro ha
  have hfit : e.answer.fits (callOf S x e) := by
    by_contra hne
    simp only [step, if_neg hne] at h
    cases h
  rw [ha] at hfit
  cases hcall : callOf S x e with
  | none =>
    rw [hcall] at hfit
    cases hfit
  | some c =>
    rw [hcall] at hfit
    cases c with
    | approval node =>
      simp only [Resuming.asking, hcall] at hask
      cases hask
    | _ => cases hfit

lemma created_of_step (h : step S (x, st) e = some (x', st'))
    (hold : x.phase.created → st.run.isSome) (hp : x'.phase.created) : st'.run.isSome := by
  have hmono : st.run.isSome → st'.run.isSome := by
    obtain ⟨-, rfl⟩ := moves_of_step h
    exact isSome_run_after
  by_cases he : ∃ a, e = .main a
  · obtain ⟨a, rfl⟩ := he
    rcases step_main h with hesc | ⟨hthrown, hfit, hnext, rfl⟩
    · rw [hesc] at hp
      cases hp
    · by_cases hcreating : x.phase = .creating
      · have hreturned : a = .returned := by
          simp only [mainAsks, hcreating] at hfit
          cases a with
          | returned => rfl
          | thrown => exact absurd rfl hthrown
          | _ => cases hfit
        simp only [mainAsks, hcreating, hreturned, Store.after]
        simp
      · refine hmono (hold ?_)
        cases hphase : x.phase <;> simp [hphase, mainNext, Phase.created] at hcreating hnext ⊢
        · rcases preflight_cases S with ⟨m, hm⟩ | ⟨hm, -⟩ | ⟨hm, -⟩ <;> rw [← hnext, hm] at hp <;>
            cases hp
        · split at hnext <;> rw [← hnext] at hp <;> cases hp
        · rw [← hnext] at hp
          cases hp
  · obtain ⟨hm, -⟩ := moves_of_step h
    refine hmono (hold ?_)
    cases hm with
    | main | escape => exact absurd ⟨_, rfl⟩ he
    | dispatch hd =>
      rw [hd]
      rfl
    | _ => exact hp

variable {τ : Type} {D : Desk τ} {q q' : Resuming} {ev : CallEvent}

lemma PlaceFit.mono (h : PlaceFit D st q) (hrun : st.run.isSome → st'.run.isSome) :
    PlaceFit D st' q := by
  cases q with
  | listing dsl context | marking dsl context todo done => exact ⟨h.1, hrun h.2⟩
  | executing S x =>
    obtain ⟨hok, hcb, hfirst, hcreated⟩ := h
    exact ⟨hok, hcb, hfirst.imp_right hrun, fun hp => hrun (hcreated hp)⟩
  | _ => trivial

lemma PlaceFit.exec (h : PlaceFit D st (.executing S x)) (ha : e.answer ≠ .pause false)
    (hstep : step S (x, st) e = some (x', st')) : PlaceFit D st' (.executing S x') := by
  obtain ⟨hok, hcb, hfirst, hcreated⟩ := h
  obtain ⟨hm, hst⟩ := moves_of_step hstep
  refine ⟨hok.step ha hm, hcb, hfirst.imp_right fun hrun => ?_, created_of_step hstep hcreated⟩
  rw [hst]
  exact isSome_run_after hrun

inductive Advances (S : Setup) (st : Store) : Resuming → CallEvent → Resuming → Store → Prop
  | checked : Advances S st .getting .returned (checked S st.run) st
  | failed : Advances S st .failing .returned (.refused { errorMessage := "dsl_hash_mismatch" })
      (st.transition .failed)
  | listed {dsl context} :
      Advances S st (.listing dsl context) .returned
        (.marking dsl context st.waiting st.counted) st
  | marked {dsl context r todo done} :
      Advances S st (.marking dsl context (r :: todo) done) .returned
        (.marking dsl context todo done)
        (st.after (some (.upsertNodeRun { r with status := .succeeded })) .returned)
  | reenters {dsl context done} :
      Advances S st (.marking dsl context [] done) .returned
        (entering (reentered S dsl context done)) (st.transition .running)
  | thrown {q q₁ st₁} (h : resumeNext S st q = some (q₁, st₁)) :
      Advances S st q .thrown .escaped st
  | exec {S' x x' e st'}
      (h : step S' (x, st) e = some (x', st')) :
      Advances S st (.executing S' x) (.exec e) (.executing S' x') st'

lemma advances_of_step (h : callStep S (q, st) ev = some (q', st')) :
    Advances S st q ev q' st' := by
  cases ev with
  | returned =>
    cases q with
    | getting =>
      cases h
      exact .checked
    | failing =>
      cases h
      exact .failed
    | listing dsl context =>
      cases h
      exact .listed
    | marking dsl context todo done =>
      cases todo with
      | nil =>
        cases h
        exact .reenters
      | cons r todo =>
        cases h
        exact .marked
    | _ => cases h
  | thrown =>
    obtain ⟨⟨q1, st1⟩, hnext, heq⟩ := map_eq_some_iff.1 h
    cases heq
    exact .thrown hnext
  | exec e =>
    cases q with
    | executing S' x =>
      obtain ⟨⟨x', st1⟩, hstep, heq⟩ := map_eq_some_iff.1 h
      cases heq
      exact .exec hstep
    | _ => cases h

lemma Advances.run_isSome (h : Advances S st q ev q' st') (hrun : st.run.isSome) :
    st'.run.isSome := by
  cases h with
  | failed | marked | reenters => exact isSome_run_after hrun
  | exec hstep =>
    obtain ⟨-, rfl⟩ := moves_of_step hstep
    exact isSome_run_after hrun
  | _ => exact hrun

def Desk.Stores (D : Desk τ) (st : Store) : Prop :=
  ∀ r, st.run = some r → r.dslJson = toJson D.setup.dsl ∧ r.dslHash = D.dslHash

lemma Desk.Stores.after {c : Option Call} (h : D.Stores st)
    (hcreate : ∀ r, c = some (.createRun r) → st.run = none → r = runRecord D.setup) :
    D.Stores (st.after c a) := by
  intro r hr
  rcases run_after hr with ⟨r', hr', hjson, hhash⟩ | ⟨hnone, hc⟩
  · rw [hjson, hhash]
    exact h r' hr'
  · rw [hcreate r hc hnone]
    exact ⟨rfl, rfl⟩

lemma Advances.stores (h : Advances D.setup st q ev q' st') (hstored : D.Stores st)
    (hfit : PlaceFit D st q) : D.Stores st' := by
  cases h with
  | failed | marked | reenters => exact hstored.after nofun
  | exec hstep =>
    obtain ⟨-, rfl⟩ := moves_of_step hstep
    refine hstored.after fun r hr hnone => ?_
    obtain ⟨-, -, hfirst, -⟩ := hfit
    rcases hfirst with rfl | hsome
    · exact (callOf_createRun hr).1
    · rw [hnone] at hsome
      cases hsome
  | _ => exact hstored

lemma PlaceFit.step (hcb : D.setup.hasCallback) (hstored : D.Stores st)
    (h : PlaceFit D st q) (hask : q.asking ev = none) (hstep : Advances D.setup st q ev q' st') :
    PlaceFit D st' q' := by
  cases hstep with
  | checked =>
    rcases checked_cases D.setup st with ⟨out, hc, -⟩ | hc | ⟨dsl, context, hc, r, hr, -, hdsl, -⟩
    · rw [hc]
      trivial
    · rw [hc]
      trivial
    · rw [hc]
      rw [(hstored r hr).1] at hdsl
      exact ⟨nodes_of_fromJson hdsl, by rw [hr]; rfl⟩
  | failed => trivial
  | listed => exact h
  | marked => exact ⟨h.1, isSome_run_after h.2⟩
  | @reenters dsl context done =>
    have hrun : (st.transition .running).run.isSome := isSome_run_after h.2
    refine ⟨runOk_init _ done ?_, hcb, .inr hrun, fun _ => hrun⟩
    show (trim dsl done).nodes = (trim D.setup.dsl done).nodes
    unfold trim
    rw [h.1]
  | thrown => trivial
  | exec hx => exact h.exec (answer_of_plain hask hx) hx

end

/-! ## a reviewer's call -/

section
variable (past : List ((c : QueueCall) × c.Answer))

/-- the call was answered by the applier for a proposal of this id -/
def AppliedIn (id : String) : Prop :=
  ∃ p a, ⟨.apply p, a⟩ ∈ past ∧ p.id = id

/-- a write changes only state and review of a proposal that was read, and closes it only after the
applier; what is applied was read -/
def Allowed : QueueCall → Prop
  | .update p => (∃ cur, ⟨.get cur.id, some cur⟩ ∈ past ∧ p.id = cur.id ∧ p.payload = cur.payload ∧
      p.source = cur.source) ∧ (Open p ∨ AppliedIn past p.id)
  | .apply p => ⟨.get p.id, some p⟩ ∈ past
  | _ => True

def Keyed : (c : QueueCall) → c.Answer → Prop
  | .get id, some cur => cur.id = id
  | _, _ => True

abbrev Keeps (p : Prog (Except TypeError Bool)) :
    Prop := Proc.wp Allowed Keyed past p (fun _ _ => True)

end

section
variable {τ : Type} {D : Desk τ} {past : List ((c : QueueCall) × c.Answer)}

lemma keeps_read {enabled : Bool} {id : String}
    {k : Option ApprovalProposal → Prog (Except TypeError Bool)}
    (hnone : Keeps [⟨.get id, none⟩] (k none))
    (hsome : ∀ cur, cur.id = id → Keeps [⟨.get id, some cur⟩] (k (some cur))) :
    Keeps [] (if !enabled then pure (.ok false) else .call (.get id) k) := by
  cases enabled with
  | false => trivial
  | true =>
    refine ⟨trivial, fun o ho => ?_⟩
    cases o with
    | none => exact hnone
    | some cur => exact hsome cur ho

lemma keeps_move {p : ApprovalProposal} (h : Allowed past (.update p)) :
    Keeps past (moveProg D.deps p) := ⟨h, fun _ _ => trivial⟩

lemma keeps_runApplier {cur : ApprovalProposal} :
    Keeps [⟨.get cur.id, some cur⟩] (runApplierProg D.deps cur) := by
  refine ⟨mem_singleton_self _, fun result _ => ?_⟩
  cases result with
  | error e => trivial
  | ok r =>
    show Keeps _ (if r.success then _ else _)
    split
    · refine keeps_move ⟨⟨cur, ?_, rfl, rfl, rfl⟩, .inr ⟨cur, .ok r, ?_, rfl⟩⟩ <;> simp
    · refine ⟨trivial, fun back _ => ?_⟩
      cases back with
      | error e => trivial
      | ok b =>
        refine ⟨⟨⟨cur, ?_, rfl, rfl, rfl⟩, .inr ⟨cur, .ok r, ?_, rfl⟩⟩, fun _ _ => trivial⟩
        · simp
        · simp

lemma keeps_prog (request : Request) : Keeps [] (request.prog D) := by
  cases request with
  | approve nowMs id reviewer =>
    refine keeps_read trivial fun cur hid => ?_
    show Keeps _ (if cur.state ≠ .proposed then _ else _)
    split
    · trivial
    · refine keeps_move ⟨⟨cur, ?_, rfl, rfl, rfl⟩, .inl (.inr rfl)⟩
      rw [hid]
      exact mem_singleton_self _
  | apply id =>
    refine keeps_read trivial fun cur hid => ?_
    show Keeps _ (if cur.state ≠ .approved then _ else if _ then _ else if _ then _ else _)
    split
    · trivial
    split
    · trivial
    split
    · trivial
    · rw [← hid]
      exact keeps_runApplier

end

/-! ## the invariant -/

/-- the engine will return without another look at the run -/
def Resuming.spent : Resuming → Bool
  | .executing _ _ | .refused _ => true
  | _ => false

/-- the call will close the proposal of this id, or has done so -/
def Task.Spent : Task → String → Prop
  | .execute _, _ => False
  | .review r, id => AppliedIn r.past id ∨
      ∃ p k q, r.rest = .call (.apply p) k ∧ p.id = id ∧ r.place = some q ∧ q.spent

/-- what was read is still there, but for its state and review -/
structure ReviewOk (queue : ApprovalQueue) (r : Review) : Prop where
  keeps : Keeps r.past r.rest
  read : ∀ id cur, ⟨.get id, some cur⟩ ∈ r.past →
    ∃ now, queue.get id = some now ∧ now.payload = cur.payload ∧ now.source = cur.source
  applied : ∀ id, AppliedIn r.past id → (queue.get id).isSome

section
variable {τ : Type} (D : Desk τ)

def Task.Fit (w : World τ) : Task → Prop
  | .execute q => PlaceFit D w.store q
  | .review r => ReviewOk w.shared.queue r ∧ ∀ q, r.place = some q → PlaceFit D w.store q

/-- an open proposal would resume the run, and no call has spent it -/
def Backed (w : World τ) (tasks : List Task) : Prop :=
  w.store.run.isSome ∧ ∃ id p, w.shared.queue.get id = some p ∧ Open p ∧
    p.source = .workflow ∧ D.Passes p ∧ ∀ t ∈ tasks, ¬ t.Spent id

/-- the run is stored as paused, or will be when the `execute` under way comes to its end -/
def Pausing (w : World τ) (tasks : List Task) : Prop :=
  w.store.Waiting ∨ ∃ t ∈ tasks, ∃ S x, t.place = some (.executing S x) ∧ x.phase.ended = false ∧
    x.flags.paused

structure Unorphaned (s : System τ) : Prop where
  keyed : ∀ id p, s.world.shared.queue.get id = some p → p.id = id
  stores : D.Stores s.world.store
  fit : ∀ t ∈ s.tasks, t.Fit D s.world
  alone : s.tasks.countP busy ≤ 1
  backed : Pausing s.world s.tasks → Backed D s.world s.tasks

/-- an open proposal that would resume the run -/
def Live (q : ApprovalQueue) (id : String) : Prop :=
  ∃ p, q.get id = some p ∧ Open p ∧ p.source = .workflow ∧ D.Passes p

/-- a read is answered with what the queue has -/
def Reads (queue : ApprovalQueue) : (c : QueueCall) → c.Answer → Prop
  | .get id, o => queue.get id = o
  | _, _ => True

/-- what was in the queue is still there, but for its state and review -/
def Grows (q q' : ApprovalQueue) : Prop :=
  ∀ id now, q.get id = some now →
    ∃ now', q'.get id = some now' ∧ now'.payload = now.payload ∧ now'.source = now.source

end

section
variable {τ : Type} {D : Desk τ} {w w' : World τ} {l r : List Task} {t t' : Task}
  {e : CallEvent} {amb : Ambient} {p : ApprovalProposal} {S : Setup} {c : QueueCall} {id : String}
  {queue : ApprovalQueue} {st' : Store} {a : c.Answer} {x : Exec} {dg : Digest}
  {k : c.Answer → Prog (Except TypeError Bool)}

lemma Grows.refl (q : ApprovalQueue) : Grows q q := fun _ now h => ⟨now, h, rfl, rfl⟩

lemma ReviewOk.grows {q q' : ApprovalQueue} {r : Review} (h : ReviewOk q r) (hg : Grows q q') :
    ReviewOk q' r where
  keeps := h.keeps
  read id cur hmem := by
    obtain ⟨now, hget, hp, hs⟩ := h.read id cur hmem
    obtain ⟨now', hget', hp', hs'⟩ := hg id now hget
    exact ⟨now', hget', hp'.trans hp, hs'.trans hs⟩
  applied id hid := by
    obtain ⟨now, hget⟩ := isSome_iff_exists.1 (h.applied id hid)
    obtain ⟨now', hget', -⟩ := hg id now hget
    rw [hget']
    rfl

lemma Task.Fit.mono (h : t.Fit D w) (hg : Grows w.shared.queue w'.shared.queue)
    (hrun : w.store.run.isSome → w'.store.run.isSome) : t.Fit D w' := by
  cases t with
  | execute q => exact PlaceFit.mono h hrun
  | review r => exact ⟨h.1.grows hg, fun q hq => (h.2 q hq).mono hrun⟩

lemma Task.Fit.place (h : t.Fit D w) {q : Resuming} (hq : t.place = some q) :
    PlaceFit D w.store q := by
  cases t with
  | execute q' =>
    cases hq
    exact h
  | review r => exact h.2 q hq

lemma Task.Fit.stored (h : t.Fit D w) (hs : t.Spent id) : (w.shared.queue.get id).isSome := by
  cases t with
  | execute q => exact hs.elim
  | review r =>
    rcases hs with hs | ⟨p, k, q, hrest, rfl, -⟩
    · exact h.1.applied id hs
    · have hkeeps := h.1.keeps
      rw [hrest] at hkeeps
      obtain ⟨now, hget, -⟩ := h.1.read p.id p hkeeps.1
      rw [hget]
      rfl

lemma Backed.transfer (h : Backed D w (l ++ t :: r))
    (hrun : w.store.run.isSome → w'.store.run.isSome)
    (hkeep : ∀ id, Live D w.shared.queue id → ¬ t.Spent id →
      Live D w'.shared.queue id ∧ ¬ t'.Spent id) : Backed D w' (l ++ t' :: r) := by
  obtain ⟨hsome, id, p, hget, hopen, hsource, hpasses, hspent⟩ := h
  obtain ⟨⟨p', hget', hopen', hsource', hpasses'⟩, hnot⟩ :=
    hkeep id ⟨p, hget, hopen, hsource, hpasses⟩ (hspent t (by simp))
  exact ⟨hrun hsome, id, p', hget', hopen', hsource', hpasses', Position.forall_mem_replace hspent hnot⟩

lemma Unorphaned.advance (h : Unorphaned D ⟨w, l ++ t :: r⟩)
    (hg : Grows w.shared.queue w'.shared.queue)
    (hkeyed : ∀ id p, w'.shared.queue.get id = some p → p.id = id) (hstores : D.Stores w'.store)
    (hrun : w.store.run.isSome → w'.store.run.isSome) (hfit : t'.Fit D w')
    (hbusy : t'.busy → t.busy ∨ ∀ u ∈ l ++ t :: r, u.busy = false)
    (hbacked : Pausing w' (l ++ t' :: r) → Backed D w' (l ++ t' :: r)) :
    Unorphaned D ⟨w', l ++ t' :: r⟩ where
  keyed := hkeyed
  stores := hstores
  fit := Position.forall_mem_replace (fun u hu => (h.fit u hu).mono hg hrun) hfit
  alone := by
    have hone := h.alone
    simp only [countP_append, countP_cons] at hone ⊢
    cases hb : t'.busy with
    | false =>
      simp only [Bool.false_eq_true, if_false]
      omega
    | true =>
      rcases hbusy hb with ht | hnone
      · rw [ht] at hone
        exact hone
      · have hrest : (l ++ r).countP busy = 0 := by
          rw [countP_eq_zero]
          intro u hu
          simp [hnone u (Position.mem_of_mem_rest t hu)]
        rw [countP_append] at hrest
        simp only [if_true]
        omega
  backed := hbacked

lemma Unorphaned.others (h : Unorphaned D ⟨w, l ++ t :: r⟩) (ht : t.busy) :
    ∀ u ∈ l ++ r, u.busy = false := by
  have hone := h.alone
  simp only [countP_append, countP_cons, ht, if_true] at hone
  have hrest : (l ++ r).countP busy = 0 := by
    rw [countP_append]
    omega
  simpa using countP_eq_zero.1 hrest

/-! ## the steps of the queue and the applier -/

variable {rev : Review}

lemma Unorphaned.reviewed {rev' : Review} (h : Unorphaned D ⟨w, l ++ .review rev :: r⟩)
    (hstore : w'.store = w.store) (hg : Grows w.shared.queue w'.shared.queue)
    (hkeyed : ∀ id p, w'.shared.queue.get id = some p → p.id = id)
    (hok : ReviewOk w'.shared.queue rev') (hplace : ∀ q, rev'.place = some q → q = .getting)
    (hkeep : ∀ id, Live D w.shared.queue id → w.store.run.isSome → ¬ (review rev).Spent id →
      Live D w'.shared.queue id ∧ ¬ (review rev').Spent id) :
    Unorphaned D ⟨w', l ++ .review rev' :: r⟩ := by
  have hrun : w.store.run.isSome → w'.store.run.isSome := by
    rw [hstore]
    exact id
  refine h.advance hg hkeyed (hstore ▸ h.stores) hrun ⟨hok, fun q hq => ?_⟩ (fun hb => ?_)
    (fun hp => ?_)
  · rw [hplace q hq]
    trivial
  · cases hq : rev'.place with
    | none => simp [busy, place, hq] at hb
    | some q => simp [busy, place, hq, hplace q hq, Resuming.busy] at hb
  · have hold : Pausing w (l ++ .review rev :: r) := by
      rcases hp with hp | ⟨u, hu, S, x, hq, hx⟩
      · exact .inl (hstore ▸ hp)
      · refine .inr ⟨u, ?_, S, x, hq, hx⟩
        rcases Position.mem_split_cases hu with hu | rfl
        · exact Position.mem_of_mem_rest _ hu
        · exact absurd (hplace _ hq) (by simp)
    have hback := h.backed hold
    exact hback.transfer hrun fun id hlive => hkeep id hlive hback.1

lemma ReviewOk.reads_apply
    {k : Except TypeError ApplyResult → Prog (Except TypeError Bool)}
    (h : ReviewOk queue rev) (hrest : rev.rest = .call (.apply p) k) :
    ∃ now, queue.get p.id = some now ∧ now.payload = p.payload ∧ now.source = p.source := by
  have hkeeps := h.keeps
  rw [hrest] at hkeeps
  exact h.read p.id p hkeeps.1

lemma ReviewOk.answered {queue' : ApprovalQueue} (h : ReviewOk queue rev)
    (hrest : rev.rest = .call c k) (hg : Grows queue queue') (hkey : Keyed c a)
    (hread : Reads queue' c a) : ReviewOk queue' (rev.answered c k a) := by
  have hkeeps := h.keeps
  rw [hrest] at hkeeps
  have hold := h.grows hg
  refine ⟨hkeeps.2 a hkey, fun id cur hmem => ?_, ?_⟩
  · rcases mem_cons.1 hmem with heq | hmem
    · cases heq
      exact ⟨cur, hread, rfl, rfl⟩
    · exact hold.read id cur hmem
  · rintro id ⟨p, b, hmem, rfl⟩
    rcases mem_cons.1 hmem with heq | hmem
    · obtain rfl : QueueCall.apply p = c := congrArg Sigma.fst heq
      obtain ⟨now, hget, -⟩ := hold.reads_apply hrest
      rw [hget]
      rfl
    · exact hold.applied p.id ⟨p, b, hmem, rfl⟩

lemma not_spent_answered (h : ¬ (review rev).Spent id) (hc : ∀ p, c = .apply p → p.id ≠ id) :
    ¬ (review (rev.answered c k a)).Spent id := by
  rintro (⟨p, b, hmem, hid⟩ | ⟨p, k', q, -, -, hplace, -⟩)
  · rcases mem_cons.1 hmem with heq | hmem
    · exact hc p (congrArg Sigma.fst heq).symm hid
    · exact h (.inl ⟨p, b, hmem, hid⟩)
  · cases hplace

lemma keyed_update {q : ApprovalQueue} (h : ∀ id p, q.get id = some p → p.id = id) :
    ∀ id p', (q.update dg p).1.get id = some p' → p'.id = id := by
  intro id p' hget
  rw [get_update] at hget
  split at hget
  · next hid =>
    cases hget
    exact hid.2.symm
  · exact h id p' hget

lemma ReviewOk.grows_update (h : ReviewOk queue rev) (hallowed : Allowed rev.past (.update p)) :
    Grows queue (queue.update dg p).1 := by
  intro id now hget
  rw [get_update]
  split
  · next hid =>
    obtain ⟨⟨cur, hmem, heq, hp, hs⟩, -⟩ := hallowed
    obtain ⟨now', hget', hp', hs'⟩ := h.read cur.id cur hmem
    rw [hid.2, heq, hget'] at hget
    cases hget
    exact ⟨p, rfl, hp.trans hp'.symm, hs.trans hs'.symm⟩
  · exact ⟨now, hget, rfl, rfl⟩

section
variable (h : Unorphaned D ⟨w, l ++ .review rev :: r⟩)
include h

lemma Unorphaned.answered (hrest : rev.rest = .call c k) (hstore : w'.store = w.store)
    (hqueue : w'.shared.queue = w.shared.queue) (hread : Reads w'.shared.queue c a)
    (hc : ∀ p, c = .apply p → p.source = .workflow → D.Passes p → w.store.run.isSome →
      (review rev).Spent p.id) : Unorphaned D ⟨w', l ++ .review (rev.answered c k a) :: r⟩ := by
  have hok : ReviewOk w.shared.queue rev := (h.fit (.review rev) (by simp)).1
  have hg : Grows w.shared.queue w'.shared.queue := by
    rw [hqueue]
    exact Grows.refl _
  have hkeyed : ∀ id p, w'.shared.queue.get id = some p → p.id = id := hqueue ▸ h.keyed
  refine h.reviewed hstore hg hkeyed (hok.answered hrest hg ?_ hread) (fun q hq => by cases hq) ?_
  · cases c with
    | get id =>
      cases a with
      | none => trivial
      | some cur => exact hkeyed id cur hread
    | _ => trivial
  · intro id hlive hrun hspent
    rw [hqueue]
    refine ⟨hlive, not_spent_answered hspent ?_⟩
    rintro p rfl rfl
    obtain ⟨now, hget, -, hsource, hpasses⟩ := hlive
    obtain ⟨now', hget', hp, hs⟩ := hok.reads_apply hrest
    cases hget.symm.trans hget'
    exact hspent (hc p rfl (hs.symm.trans hsource) (hpasses.congr hp.symm) hrun)

lemma Unorphaned.queue_step (hrest : rev.rest = .call c k)
    (hc : ∀ p, c = .apply p → p.source ≠ .workflow) :
    Unorphaned D ⟨{ w with shared := (exec D.deps c w.shared).2 },
      l ++ .review (rev.answered c k (exec D.deps c w.shared).1) :: r⟩ := by
  have hok : ReviewOk w.shared.queue rev := (h.fit (.review rev) (by simp)).1
  have hqueue := queue_exec (d := D.deps) c w.shared
  cases c with
  | get id => exact h.answered hrest rfl hqueue rfl (fun p hp => by cases hp)
  | update p =>
    have hkeeps := hok.keeps
    rw [hrest] at hkeeps
    have hg : Grows w.shared.queue (exec D.deps (.update p) w.shared).2.queue :=
      hok.grows_update hkeeps.1
    refine h.reviewed rfl hg (keyed_update h.keyed)
      (hok.answered hrest hg trivial trivial)
      (fun q hq => by cases hq) ?_
    rintro id ⟨p0, hget, hopen, hsource, hpasses⟩ - hspent
    refine ⟨?_, not_spent_answered hspent (fun p hp => by cases hp)⟩
    obtain ⟨p', hget', hp', hs'⟩ := hg id p0 hget
    refine ⟨p', hget', ?_, hs'.trans hsource, hpasses.congr hp'⟩
    -- a write under this id leaves the proposal open: the call has not applied it
    have hnew : (w.shared.queue.update D.deps.digest p).1.get id = some p' := hget'
    rw [get_update] at hnew
    split at hnew
    · next hid =>
      cases hnew
      refine hkeeps.1.2.resolve_right fun happ => hspent (.inl ?_)
      rw [hid.2]
      exact happ
    · rw [hget] at hnew
      cases hnew
      exact hopen
  | apply p =>
    refine h.answered hrest rfl hqueue trivial ?_
    intro p' heq hsource
    exact absurd hsource (hc p' heq)
  | rollback p =>
    exact h.answered hrest rfl hqueue trivial (fun p hp => by cases hp)

lemma Unorphaned.entered_step :
    Unorphaned D ⟨w.calls p, l ++ .review { rev with place := some .getting } :: r⟩ := by
  have hok : ReviewOk w.shared.queue rev := (h.fit (.review rev) (by simp)).1
  refine h.reviewed rfl (Grows.refl _) h.keyed ⟨hok.keeps, hok.read, hok.applied⟩
    (fun q hq => ?_) fun id hlive _ hspent => ?_
  · cases hq
    rfl
  · refine ⟨hlive, ?_⟩
    rintro (happ | ⟨p', k, q, -, -, hplace, hq⟩)
    · exact hspent (.inl happ)
    · cases hplace
      cases hq

end

/-! ## the steps of the engine -/

def Task.moved (t : Task) (q : Resuming) : Task :=
  match t with
  | .execute _ => .execute q
  | .review r => .review { r with place := some q }

variable {q q' : Resuming} {st : Store}

@[simp] lemma place_moved (t : Task) (q : Resuming) : (t.moved q).place = some q := by
  cases t <;> rfl

lemma busy_of_place (h : t.place = some q) : t.busy = q.busy := by
  simp [busy, h]

lemma fit_moved (h : t.Fit D w) (hg : Grows w.shared.queue w'.shared.queue)
    (hfit : PlaceFit D w'.store q') : (t.moved q').Fit D w' := by
  cases t with
  | execute q => exact hfit
  | review rev =>
    have hok := h.1.grows hg
    refine ⟨⟨hok.keeps, hok.read, hok.applied⟩, fun q hq => ?_⟩
    cases hq
    exact hfit

lemma not_spent_moved (h : ¬ t.Spent id) (hplace : t.place = some q)
    (hq : q'.spent → q.spent) : ¬ (t.moved q').Spent id := by
  cases t with
  | execute q => exact fun hs => hs
  | review rev =>
    rintro (happ | ⟨p, k, q1, hrest, hid, hq1, hs⟩)
    · exact h (.inl happ)
    · cases hq1
      exact h (.inr ⟨p, k, q, hrest, hid, hplace, hq hs⟩)

lemma not_waiting_transition {status : RunStatus} (h : status ≠ .waitingForApproval) :
    ¬ (st.transition status).Waiting := by
  rintro ⟨r, hr, hst⟩
  exact h ((transition_status hr).symm.trans hst)

lemma Advances.waiting {st : Store} (h : Advances S st q e q' st') (hw : st'.Waiting) :
    st.Waiting ∨ ∃ S' x, q = .executing S' x ∧ x.phase = .closing ∧ x.flags.paused := by
  cases h with
  | failed | reenters => exact absurd hw (not_waiting_transition (by simp))
  | exec hx => exact (waiting_of_step hx hw).imp_right fun hp => ⟨_, _, rfl, hp⟩
  | _ => exact .inl hw

lemma checked_waiting (hids : ∀ n ∈ D.setup.dsl.nodes, n.id ≠ "") (hstored : D.Stores st)
    (hw : st.Waiting) : ∃ dsl context, checked D.setup st.run = .listing dsl context := by
  obtain ⟨r, hr, hst⟩ := hw
  obtain ⟨hjson, hhash⟩ := hstored r hr
  have hdsl := fromJson_toJson hids
  have hsame : canonicalHash D.setup.sha256
      { D.setup.dsl with metadata := metadataFromJson (toJson D.setup.dsl) } = r.dslHash := by
    rw [hhash]
    rfl
  refine ⟨{ D.setup.dsl with metadata := metadataFromJson (toJson D.setup.dsl) }, r.contextJson, ?_⟩
  unfold checked
  simp only [hr, hst, hjson, hdsl, hsame, ne_eq, not_true_eq_false, if_false]

lemma Advances.busy {st : Store} (h : Advances S st q e q' st') (hb : q'.busy) :
    q.busy ∨ q = .getting := by
  cases h with
  | checked => exact .inr rfl
  | failed | thrown => cases hb
  | @exec S' x x' ev st' hx =>
    left
    simp only [Resuming.busy, Bool.not_eq_true'] at hb ⊢
    exact not_ended_of_step hx hb
  | _ => exact .inl rfl

lemma Advances.to_executing {S' : Setup} {st st' : Store} (h : Advances S st q e q' st')
    (hq' : q' = .executing S' x) :
    (∃ x0 ev, q = .executing S' x0 ∧ e = .exec ev ∧ step S' (x0, st) ev = some (x, st')) ∨
      q.spent = false ∧ x.flags.paused = false := by
  cases h with
  | checked =>
    rcases checked_cases S st with ⟨out, hc, -⟩ | hc | ⟨dsl, context, hc, -⟩ <;> rw [hc] at hq' <;>
      cases hq'
  | reenters =>
    cases hq'
    exact .inr ⟨rfl, rfl⟩
  | exec hx =>
    cases hq'
    exact .inl ⟨_, _, rfl, rfl, hx⟩
  | _ => cases hq'

lemma Unorphaned.settled (hD : D.Sound) (h : Unorphaned D ⟨w, l ++ t :: r⟩)
    (hplace : t.place = some q) (hstep : Advances D.setup w.store q e q' st)
    (horder : q = .getting → ∀ u ∈ l ++ t :: r, u.busy = false) (hq : q.spent = false)
    (hq' : q'.spent) : ¬ Pausing { w with store := st } (l ++ t.moved q' :: r) := by
  have hothers : ∀ u ∈ l ++ r, u.busy = false := by
    by_cases hget : q = .getting
    · intro u hu
      exact horder hget u (Position.mem_of_mem_rest t hu)
    · refine h.others ?_
      rw [busy_of_place hplace]
      cases hstep <;> first | rfl | exact absurd rfl hget | cases hq'
      cases hq
  have hwait : ¬ st.Waiting := by
    cases hstep with
    | checked =>
      intro hw
      obtain ⟨dsl, context, hc⟩ := checked_waiting hD.ids h.stores hw
      rw [hc] at hq'
      cases hq'
    | failed | reenters => exact not_waiting_transition (by simp)
    | exec hx => cases hq
    | _ => cases hq'
  rintro (hw | ⟨u, hu, S, x, hplace', hended, hpaused⟩)
  · exact hwait hw
  · rcases Position.mem_split_cases hu with hu | rfl
    · have hbusy := hothers u hu
      rw [busy_of_place hplace'] at hbusy
      simp [Resuming.busy, hended] at hbusy
    · rw [place_moved] at hplace'
      rcases hstep.to_executing (some.inj hplace') with ⟨x0, ev, rfl, -⟩ | ⟨-, hnew⟩
      · cases hq
      · rw [hnew] at hpaused
        cases hpaused

lemma Unorphaned.plain_step (hD : D.Sound) (h : Unorphaned D ⟨w, l ++ t :: r⟩)
    (hplace : t.place = some q) (hask : q.asking e = none)
    (hstep : callStep D.setup (q, w.store) e = some (q', st))
    (horder : q = .getting → ∀ u ∈ l ++ t :: r, u.busy = false) :
    Unorphaned D ⟨{ w with store := st }, l ++ t.moved q' :: r⟩ := by
  have hadv := advances_of_step hstep
  have hfit := h.fit t (by simp)
  have hplaceFit := hfit.place hplace
  refine h.advance (Grows.refl _) h.keyed (hadv.stores h.stores hplaceFit) hadv.run_isSome
    (fit_moved hfit (Grows.refl _) (hplaceFit.step hD.callback h.stores hask hadv)) (fun hb => ?_)
    (fun hpausing => ?_)
  · rw [busy_of_place (place_moved t q')] at hb
    rw [busy_of_place hplace]
    exact (hadv.busy hb).imp_right horder
  · by_cases hspent : q'.spent → q.spent
    · have hold : Pausing w (l ++ t :: r) := by
        rcases hpausing with hw | ⟨u, hu, S, x, hu', hended, hpaused⟩
        · rcases hadv.waiting hw with hw | ⟨S, x, rfl, hclosing, hpaused⟩
          · exact .inl hw
          · exact .inr ⟨t, by simp, S, x, hplace, by rw [hclosing]; rfl, hpaused⟩
        · rcases Position.mem_split_cases hu with hu | rfl
          · exact .inr ⟨u, Position.mem_of_mem_rest t hu, S, x, hu', hended, hpaused⟩
          · rw [place_moved] at hu'
            cases hu'
            rcases hadv.to_executing rfl with ⟨x0, ev, rfl, rfl, hx⟩ | ⟨-, hnew⟩
            · refine .inr ⟨t, by simp, S, x0, hplace, not_ended_of_step hx hended, ?_⟩
              rw [← paused_of_plain hplaceFit.2.1 hask hx]
              exact hpaused
            · rw [hnew] at hpaused
              cases hpaused
      exact (h.backed hold).transfer hadv.run_isSome fun id hlive hnot =>
        ⟨hlive, not_spent_moved hnot hplace hspent⟩
    · obtain ⟨hq', hq⟩ := Classical.not_imp.1 hspent
      exact absurd hpausing (h.settled hD hplace hadv horder (by simpa using hq) hq')

lemma Unorphaned.ask_step {x' : Exec} {l1 r1 : List Job} {job : Job} (hD : D.Sound)
    (h : Unorphaned D ⟨w, l ++ t :: r⟩) (hplace : t.place = some (.executing S x))
    (hr : x.running = l1 ++ job :: r1) (hpc : job.pc = .askApproval)
    (hstep : step S (x, w.store) (.node l1.length (.pause true)) = some (x', w.store))
    (hfresh : Unused w.shared.queue amb.ulid) :
    Unorphaned D ⟨w.enqueued D amb job.node S.context, l ++ t.moved (.executing S x') :: r⟩ := by
  have hfit := h.fit t (by simp)
  have hplaceFit := hfit.place hplace
  have hok := hplaceFit.1
  have hjob : job ∈ x.running := by simp [hr]
  have hwaiting : x.phase = .waiting := hok.waiting (by simp [hr])
  have hrun : w.store.run.isSome := hplaceFit.2.2.2 (by rw [hwaiting]; rfl)
  have htype : job.node.type = .humanApproval := by
    have htyped := (hok.jobs job hjob).typed
    rw [hpc] at htyped
    exact htyped
  obtain ⟨n, hn, hid, hn'⟩ := hok.approval_node hjob htype
  have hdel := hD.delivered n hn hn'
  rw [hid] at hdel
  obtain ⟨-, hget⟩ := enqueue_accepted D amb w.shared.queue job.node S.context hD.enabled
    (validate_approvalTrace.2 ⟨by rw [hdel.run]; exact hdel.named, hdel.algorithm, hdel.digest⟩) hfresh
  have hne : ∀ id now, w.shared.queue.get id = some now → id ≠ amb.ulid := by
    rintro id now hnow rfl
    rw [hfresh.2.1] at hnow
    cases hnow
  have hg : Grows w.shared.queue (D.enqueue amb w.shared.queue job.node S.context).1 := by
    intro id now hnow
    exact ⟨now, (get_enqueue_ne D amb _ job.node S.context (hne id now hnow)).trans hnow, rfl, rfl⟩
  refine h.advance hg ?_ h.stores id ?_ (fun _ => .inl ?_) fun _ => ?_
  · intro id p hp
    by_cases hulid : id = amb.ulid
    · subst hulid
      have hsome : some (D.proposal amb job.node S.context) = some p := hget.symm.trans hp
      cases hsome
      rfl
    · exact h.keyed id p ((get_enqueue_ne D amb _ job.node S.context hulid).symm.trans hp)
  · exact fit_moved hfit hg (hplaceFit.exec (by simp [Event.answer]) hstep)
  · rw [busy_of_place hplace]
    simp [Resuming.busy, hwaiting, Phase.ended]
  · refine ⟨hrun, amb.ulid, _, hget, .inl rfl, rfl, passes_proposal hdel, fun u hu hspent => ?_⟩
    have hstored : (w.shared.queue.get amb.ulid).isSome := by
      rcases Position.mem_split_cases hu with hu | rfl
      · exact (h.fit u (Position.mem_of_mem_rest t hu)).stored hspent
      · refine hfit.stored ?_
        by_contra hnot
        exact not_spent_moved hnot hplace (fun _ => rfl) hspent
    rw [hfresh.2.1] at hstored
    cases hstored

lemma Unorphaned.engine_step (hD : D.Sound) (h : Unorphaned D ⟨w, l ++ t :: r⟩)
    (hplace : t.place = some q) (hmoves : EngineMoves D w q e amb w' q')
    (horder : q = .getting → ∀ u ∈ l ++ t :: r, u.busy = false)
    (hfresh : w.Fresh q e amb) :
    Unorphaned D ⟨w', l ++ t.moved q' :: r⟩ := by
  cases hmoves with
  | plain hask hstep => exact h.plain_step hD hplace hask hstep horder
  | @asks S x x' l1 r1 job amb hr hpc hcb hstep hx =>
    refine h.ask_step hD hplace hr hpc hstep (hfresh ?_)
    rw [asking_askApproval hr hpc hcb]
    rfl

lemma Unorphaned.begins (h : Unorphaned D ⟨w, l⟩) (request : Request) :
    Unorphaned D ⟨w, request.task D :: l⟩ := by
  have hnot : ∀ id, ¬ (request.task D).Spent id := by
    rintro id (⟨p, a, hmem, -⟩ | ⟨p, k, q, -, -, hplace, -⟩)
    · cases hmem
    · cases hplace
  refine ⟨h.keyed, h.stores, fun u hu => ?_, ?_, fun hp => ?_⟩
  · rcases mem_cons.1 hu with rfl | hu
    · refine ⟨⟨keeps_prog request, (fun id cur hmem => by cases hmem), ?_⟩, fun q hq => by cases hq⟩
      rintro id ⟨p, a, hmem, -⟩
      cases hmem
    · exact h.fit u hu
  · exact h.alone
  · have hold : Pausing w l := by
      rcases hp with hp | ⟨u, hu, S, x, hplace, hx⟩
      · exact .inl hp
      · rcases mem_cons.1 hu with rfl | hu
        · cases hplace
        · exact .inr ⟨u, hu, S, x, hplace, hx⟩
    obtain ⟨hrun, id, p, hget, hopen, hsource, hpasses, hspent⟩ := h.backed hold
    exact ⟨hrun, id, p, hget, hopen, hsource, hpasses, forall_mem_cons.2 ⟨hnot id, hspent⟩⟩

lemma Unorphaned.step {s s' : System τ} (hD : D.Sound) (h : Unorphaned D s)
    (hst : OrderlyStep D s s') : Unorphaned D s' := by
  obtain ⟨w, tasks⟩ := s
  obtain ⟨ev, horder, hstep⟩ := hst
  cases ev with
  | begin request =>
    cases hstep
    exact h.begins request
  | step i e amb =>
    obtain ⟨t, ht, hstep⟩ := bind_eq_some_iff.1 hstep
    obtain ⟨⟨w', t'⟩, htask, rfl⟩ := map_eq_some_iff.1 hstep
    obtain ⟨hget, hfresh⟩ := horder t ht
    obtain ⟨l, r, hsplit, rfl⟩ := Position.split_of_getElem? ht
    obtain rfl : tasks = l ++ t :: r := hsplit
    rw [Position.set_split]
    have hworks := works_of_step htask
    cases hworks with
    | execute hmoves =>
      exact h.engine_step hD rfl hmoves (fun hq => hget (congrArg some hq)) (hfresh _ rfl)
    | queue hrest hc => exact h.queue_step hrest hc
    | refused hrest hs hplace hcheck =>
      refine h.answered hrest rfl rfl trivial ?_
      intro p' heq _ hpasses hrun
      cases heq
      rw [hpasses.check hD.env hrun fun r hr => (h.stores r hr).2] at hcheck
      cases hcheck
    | entered hrest hs hplace hcheck => exact h.entered_step
    | engine hrest hs hplace hout hmoves =>
      exact h.engine_step hD hplace hmoves (fun hq => hget (hplace.trans (congrArg some hq)))
        (hfresh _ hplace)
    | @returned _ _ _ _ _ q _ hrest hs hplace hout =>
      refine h.answered hrest rfl rfl trivial ?_
      intro p' heq _ _ _
      cases heq
      refine .inr ⟨_, _, _, hrest, rfl, hplace, ?_⟩
      cases q with
      | executing S x | refused out => rfl
      | _ => cases hout

lemma unorphaned_opening (hD : D.Sound) {shared : Shared τ}
    (hkeyed : ∀ id p, shared.queue.get id = some p → p.id = id) :
    Unorphaned D (opening D shared) where
  keyed := hkeyed
  stores r hr := by cases hr
  fit t ht := by
    rw [mem_singleton.1 ht]
    exact ⟨runOk_init D.setup [] trim_nil.symm, hD.callback, .inl rfl, nofun⟩
  alone := (countP_le_length).trans (le_refl 1)
  backed hp := by
    rcases hp with ⟨r, hr, -⟩ | ⟨t, ht, S, x, hplace, -, hpaused⟩
    · cases hr
    · rw [mem_singleton.1 ht] at hplace
      cases hplace
      cases hpaused

end

/-- Where a `resume` looks at the run only while no `execute` or `resume` of it is under way:
whenever the run is stored as paused, a proposal for it is still to be approved or applied. -/
theorem paused_run_backed {τ : Type} {D : Desk τ} {shared : Shared τ} {s : System τ} (hD : D.Sound)
    (hkeyed : ∀ id p, shared.queue.get id = some p → p.id = id)
    (hrun : Run.Reach (OrderlyStep D) (opening D shared) s) (hwaiting : s.world.store.Waiting) :
    ∃ id p, s.world.shared.queue.get id = some p ∧ D.Names p ∧ Open p := by
  have hinv : Unorphaned D s :=
    Run.Reach.inv (fun _ _ h hst => h.step hD hst) hrun (unorphaned_opening hD hkeyed)
  obtain ⟨-, id, p, hget, hopen, hsource, hpasses, -⟩ := hinv.backed (.inl hwaiting)
  exact ⟨id, p, hget, ⟨hsource, hpasses.find⟩, hopen⟩

/-! ## two runs -/

section
variable {τ : Type} (D : Desk τ)

def SystemMoves (s t : System τ) : Prop := ∃ ev, systemStep D s ev = some t

def playSystem (allows : System τ → SystemEvent → Bool) :
    System τ → List SystemEvent → Option (System τ)
  | s, [] => some s
  | s, ev :: evs =>
    if allows s ev then (systemStep D s ev).bind (playSystem allows · evs) else none

/-- `Orderly` in the case of these two runs: no `resume`, and ids not used yet -/
def plainly (s : System τ) : SystemEvent → Bool
  | .begin _ => true
  | .step i _ amb =>
    (s.tasks[i]?.bind place).all (fun q => match q with | .getting => false | _ => true) &&
      amb.ulid != "" && (s.world.shared.queue.get amb.ulid).isNone &&
      (s.world.shared.queue.store.bind (AList.lookup amb.ulid)).isNone

end

section
variable {τ : Type} {D : Desk τ} {s t : System τ} {ev : SystemEvent}

lemma playSystem_cons {allows : System τ → SystemEvent → Bool} {evs : List SystemEvent}
    (h : playSystem D allows s (ev :: evs) = some t) :
    ∃ u, (allows s ev ∧ systemStep D s ev = some u) ∧ playSystem D allows u evs = some t := by
  simp only [playSystem] at h
  split at h
  · next hallows =>
    obtain ⟨u, hu, hrest⟩ := bind_eq_some_iff.1 h
    exact ⟨u, ⟨hallows, hu⟩, hrest⟩
  · cases h

lemma reach_moves (evs : List SystemEvent) (h : playSystem D (fun _ _ => true) s evs = some t) :
    Run.Reach (SystemMoves D) s t := by
  refine Run.reach_of_play (fun _ => rfl) ?_ evs h
  intro s ev evs t h
  obtain ⟨u, ⟨-, hu⟩, hrest⟩ := playSystem_cons h
  exact ⟨u, ⟨ev, hu⟩, hrest⟩

lemma orderly_of_plainly (h : plainly s ev) : Orderly s ev := by
  cases ev with
  | begin request => trivial
  | step i e amb =>
    intro t ht
    simp only [plainly, ht, bind_some, Bool.and_eq_true, bne_iff_ne, isNone_iff_eq_none] at h
    obtain ⟨⟨⟨hplace, hid⟩, hget⟩, hstore⟩ := h
    refine ⟨fun hgetting => ?_, fun _ _ _ => ⟨hid, hget, hstore⟩⟩
    rw [hgetting] at hplace
    cases hplace

lemma reach_orderly (evs : List SystemEvent) (h : playSystem D plainly s evs = some t) :
    Run.Reach (OrderlyStep D) s t := by
  refine Run.reach_of_play (fun _ => rfl) ?_ evs h
  intro s ev evs t h
  obtain ⟨u, ⟨hplain, hu⟩, hrest⟩ := playSystem_cons h
  exact ⟨u, ⟨ev, orderly_of_plainly hplain, hu⟩, hrest⟩

end

/-- as the applier of a workflow proposal, which has nothing to undo -/
def idleApplier : StepApplier Unit where
  apply _ _ t := (.ok (.succeed []), t)
  rollback _ t := (.ok (.succeed []), t)

def reviewDesk (S : Setup) : Desk Unit where
  setup := S
  deps := { digest := Workflow.sampleDigest, hasAudit := false
            appliers := fun _ => some idleApplier }

def noProposals : Shared Unit := { queue := .fresh, targets := () }

def firstId : Ambient := ⟨1, "p1"⟩

/-- `execute` creates the run, and its only node asks for approval -/
def askedEvents : List SystemEvent :=
  [.step 0 (.exec (.main .quiet)) firstId, .step 0 (.exec (.main .returned)) firstId,
    .step 0 (.exec (.main .returned)) firstId, .step 0 (.exec (.dispatch ["a"])) firstId,
    .step 0 (.exec .take) firstId, .step 0 (.exec (.node 0 .quiet)) firstId,
    .step 0 (.exec (.node 0 .returned)) firstId, .step 0 (.exec (.node 0 (.pause true))) firstId]

/-- the rest of the `execute`, which is task `i` by now -/
def storedEvents (i : Nat) (amb : Ambient) : List SystemEvent :=
  [.step i (.exec (.node 0 .quiet)) amb, .step i (.exec (.main .quiet)) amb,
    .step i (.exec (.main .quiet)) amb, .step i (.exec (.main .quiet)) amb,
    .step i (.exec (.main .returned)) amb]

def approvedEvents (amb : Ambient) : List SystemEvent :=
  [.begin (.approve 2 "p1" "alice"), .step 0 .returned amb, .step 0 .returned amb]

/-- the `resume` under the `apply` finds the run running -/
def turnedDownEvents : List SystemEvent :=
  [.begin (.apply "p1"), .step 0 .returned firstId, .step 0 .returned firstId,
    .step 0 .returned firstId, .step 0 .returned firstId, .step 0 .returned firstId,
    .step 0 .returned firstId]

lemma reviewDesk_sound : (reviewDesk approvalOnly).Sound where
  callback := rfl
  enabled := rfl
  env := rfl
  ids n hn := by
    rw [mem_singleton.1 hn]
    decide
  delivered n hn _ := by
    rw [mem_singleton.1 hn]
    exact ⟨by decide, rfl, by decide, .inr rfl, by decide, by decide⟩

/-- The proposal is approved and applied before `execute` has stored the pause: all three calls
return, the run is paused, and its only proposal is rolled back. -/
theorem paused_run_orphaned :
    (reviewDesk approvalOnly).Sound ∧ ∃ s, Run.Reach (SystemMoves (reviewDesk approvalOnly))
          (opening (reviewDesk approvalOnly) noProposals) s ∧
        s.tasks.length = 3 ∧ s.tasks.all Task.ended ∧ s.world.store.Waiting ∧
        ∀ id p, s.world.shared.queue.get id = some p → ¬ Open p := by
  have hplay := reach_moves (D := reviewDesk approvalOnly)
    (s := opening (reviewDesk approvalOnly) noProposals)
    (askedEvents ++ approvedEvents firstId ++ turnedDownEvents ++ storedEvents 2 firstId) rfl
  refine ⟨reviewDesk_sound, _, hplay, rfl, rfl, ⟨_, rfl, rfl⟩, ?_⟩
  intro id p hget hopen
  have hkey : id ∈ ["p1"] := AList.lookup_isSome.1 (isSome_of_eq_some hget)
  cases mem_singleton.1 hkey
  cases hget
  rcases hopen with hopen | hopen <;> cases hopen

/-- `execute` returns before the proposal is approved -/
theorem approved_run_backed :
    ∃ s id p, Run.Reach (OrderlyStep (reviewDesk approvalOnly))
        (opening (reviewDesk approvalOnly) noProposals) s ∧ s.world.store.Waiting ∧
      s.world.shared.queue.get id = some p ∧ (reviewDesk approvalOnly).Names p ∧ Open p := by
  have hplay := reach_orderly (D := reviewDesk approvalOnly)
    (s := opening (reviewDesk approvalOnly) noProposals)
    (askedEvents ++ storedEvents 0 ⟨1, "p2"⟩ ++ approvedEvents ⟨1, "p2"⟩) rfl
  obtain ⟨id, p, hp⟩ := paused_run_backed reviewDesk_sound (fun _ _ h => by cases h) hplay
    ⟨_, rfl, rfl⟩
  exact ⟨_, id, p, hplay, ⟨_, rfl, rfl⟩, hp⟩

end AegisGate.Workflow
