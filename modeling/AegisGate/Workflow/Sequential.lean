import AegisGate.Workflow.Reviewer

/-!
# Approvals one after the other

A reviewer who approves and applies the proposals of a run as they appear, each call after the one
before has returned, while the store and the tools succeed.  An `apply` is the `resume` that goes on
with the run; when that comes to the next approval node it returns with the run paused, and the
applier takes this for a failure.

* `Drives`  the calls of such a reviewer;
* `AllApplied`  every approval node has its proposal, all are applied, the run has succeeded;
* `Desk.OneApproval`  there is one approval node, and its proposal can be applied.

At most one proposal of a run is ever applied (`Verdicts.one`): the `resume` under it has brought the
run to its end, and those before it have not.
-/

namespace AegisGate.Workflow

open Autonomy Option Workflow.Task AList
open List

/-! ## the reviewer -/

def Task.request : Task → Option Request
  | .execute _ => none
  | .review r => some r.request

section
variable {τ : Type} (D : Desk τ)

/-- the newest call goes on; when all have returned, a proposal that was asked for is approved, or one
that was approved is applied, once each -/
def Drives (s : System τ) : SystemEvent → Prop
  | .step i e amb => i = 0 ∧ ∀ t, s.tasks[0]? = some t → ∀ q, t.place = some q →
      q.Allows kindly e ∧ ((q.asking e).isSome → Unused s.world.shared.queue amb.ulid)
  | .begin (.approve _ id _) => (∀ t ∈ s.tasks, t.ended) ∧ id ≠ "" ∧
      id ∈ s.world.asked.map Prod.snd ∧
      ∀ nowMs reviewer, some (.approve nowMs id reviewer) ∉ s.tasks.map request
  | .begin (.apply id) => (∀ t ∈ s.tasks, t.ended) ∧
      (∃ nowMs reviewer, some (.approve nowMs id reviewer) ∈ s.tasks.map request) ∧
      some (.apply id) ∉ s.tasks.map request

def DriveStep (s t : System τ) : Prop := ∃ ev, Drives s ev ∧ systemStep D s ev = some t

/-- the run has succeeded, and the proposals of all its approval nodes are applied -/
def AllApplied (s : System τ) : Prop :=
  s.world.store.Succeeded ∧
    (∀ n ∈ D.setup.dsl.nodes, n.type = .humanApproval → ∃ id, (n.id, id) ∈ s.world.asked) ∧
    ∀ a ∈ s.world.asked, a.2 ≠ "" ∧ ∃ p, s.world.shared.queue.get a.2 = some p ∧ p.state = .applied

/-- the workflow is let in and has one approval node, whose proposal gets to the applier and past its
checks -/
structure Desk.OneApproval : Prop where
  admitted : preflight D.setup = .creating
  sound : D.Sound
  applier : (D.deps.appliers .workflow).isSome
  single : ∀ n ∈ D.setup.dsl.nodes, ∀ m ∈ D.setup.dsl.nodes, n.type = .humanApproval →
    m.type = .humanApproval → n = m

/-! ## the proposals of a run -/

structure Desk.Carries (n : String) (p : ApprovalProposal) : Prop where
  source : p.source = .workflow
  seals : p.payloadSha256 = computePayloadSha256 D.deps.digest p.payload
  payload : ∃ node context, node.id = n ∧ p.payload =
    scrub D.piiFilter (approvalPayload D.setup.runId D.setup.dsl.id D.dslHash node context)

/-- a node asked about, with its proposal's id: that is stored, in the rows as well -/
structure Stored (q : ApprovalQueue) (a : String × String) : Prop where
  enabled : D.enabled
  trace : scrubStr D.piiFilter D.setup.runId ≠ "" ∧
    scrubStr D.piiFilter "workflow_human_approval_v1" ≠ "" ∧
    scrubStr D.piiFilter (D.deps.digest.sha256 (D.dslHash ++ "|" ++ a.1)) ≠ ""
  rows : ∀ rows, q.store = some rows → (rows.lookup a.2).isSome
  held : ∃ p, q.get a.2 = some p ∧ p.id = a.2 ∧ D.Carries a.1 p

end

section
variable {τ : Type} {D : Desk τ} {q : ApprovalQueue} {a : String × String} {p p' : ApprovalProposal}
  {amb : Ambient} {node : NodeSpec} {context : Json} {dg : Digest}
  {rows : ProposalRows}

lemma Desk.Carries.congr {n : String} (h : D.Carries n p) (hsource : p'.source = p.source)
    (hsha : p'.payloadSha256 = p.payloadSha256) (hpayload : p'.payload = p.payload) :
    D.Carries n p' := by
  refine ⟨hsource.trans h.source, ?_, ?_⟩
  · rw [hsha, hpayload]
    exact h.seals
  · rw [hpayload]
    exact h.payload

lemma Stored.update (h : Stored D q a) (hid : a.2 ≠ "") (hp : p.id = a.2) (hc : D.Carries a.1 p) :
    (q.update D.deps.digest p).1.get a.2 = some p ∧ Stored D (q.update D.deps.digest p).1 a := by
  have hne : p.id ≠ "" := by
    rw [hp]
    exact hid
  have hwrite : ∃ rows', (∀ rows, rows' = some rows → (rows.lookup a.2).isSome) ∧
      q.update D.deps.digest p = (⟨rows', q.cache.insert p.id p⟩, true) := by
    unfold ApprovalQueue.update
    rw [if_neg hne]
    cases hstore : q.store with
    | none => exact ⟨none, nofun, rfl⟩
    | some rows =>
      have hrow : (rows.lookup p.id).isSome := by
        rw [hp]
        exact h.rows rows hstore
      refine ⟨some (rows.insert p.id (toRecord D.deps.digest p)), fun rows' hrows => ?_, ?_⟩
      · cases hrows
        rw [hp, lookup_insert]
        rfl
      · have hwrite : updateApprovalProposal rows (toRecord D.deps.digest p) =
            some (rows.insert p.id (toRecord D.deps.digest p)) := if_pos hrow
        simp only [hwrite]
  obtain ⟨rows', hrows, hwrite⟩ := hwrite
  have hget : (q.update D.deps.digest p).1.get a.2 = some p := by
    rw [hwrite, ← hp]
    exact lookup_insert _
  refine ⟨hget, h.enabled, h.trace, ?_, p, hget, hp, hc⟩
  rw [hwrite]
  exact hrows

section
variable {id : String} (hrows : ∀ rows, q.store = some rows → (rows.lookup id).isSome)
  (hne : id ≠ (toRecord dg p).id)
include hrows hne

lemma update_rows (h : (q.update dg p).1.store = some rows) : (rows.lookup id).isSome := by
  unfold ApprovalQueue.update updateApprovalProposal at h
  split at h
  · exact hrows rows h
  split at h
  · next rows0 hstore =>
    split at h
    · exact hrows rows h
    · next hwrite =>
      cases h
      split at hwrite <;> cases hwrite
      rw [lookup_insert_ne hne]
      exact hrows rows0 hstore
  · cases h

lemma insert_rows (h : (q.insert dg p).1.store = some rows) : (rows.lookup id).isSome := by
  unfold ApprovalQueue.insert insertApprovalProposal at h
  split at h
  · exact hrows rows h
  split at h
  · next rows0 hstore =>
    split at h
    · exact hrows rows h
    · next hwrite =>
      cases h
      split at hwrite
      · cases hwrite
      split at hwrite <;> cases hwrite
      rw [lookup_insert_ne hne]
      exact hrows rows0 hstore
  · split at h
    · exact hrows rows h
    · cases h

end

lemma Stored.update_ne (h : Stored D q a) (hp : p.id ≠ a.2) :
    (q.update D.deps.digest p).1.get a.2 = q.get a.2 ∧ Stored D (q.update D.deps.digest p).1 a := by
  have hget : (q.update D.deps.digest p).1.get a.2 = q.get a.2 := by
    rw [get_update, if_neg (hp ·.2.symm)]
  refine ⟨hget, h.enabled, h.trace, ?_, ?_⟩
  · intro rows hrows
    exact update_rows h.rows (Ne.symm hp) hrows
  · rw [hget]
    exact h.held

lemma Stored.enqueue (h : Stored D q a) (hfresh : Unused q amb.ulid) :
    (D.enqueue amb q node context).1.get a.2 = q.get a.2 ∧
      Stored D (D.enqueue amb q node context).1 a := by
  have hne : a.2 ≠ amb.ulid := by
    intro heq
    obtain ⟨p, hget, -⟩ := h.held
    rw [heq, hfresh.2.1] at hget
    cases hget
  have hget := get_enqueue_ne D amb q node context hne
  refine ⟨hget, h.enabled, h.trace, ?_, ?_⟩
  · intro rows hrows
    rw [enqueue_eq] at hrows
    split at hrows
    · refine insert_rows h.rows ?_ hrows
      exact hne
    · exact h.rows rows hrows
  · rw [hget]
    exact h.held

lemma stored_enqueued (D : Desk τ) (amb : Ambient) (node : NodeSpec) (context : Json)
    (hfresh : Unused q amb.ulid) : (D.enqueue amb q node context).2 = .ok "" ∨
      (D.enqueue amb q node context).2 = .ok amb.ulid ∧
      (D.enqueue amb q node context).1.get amb.ulid = some (D.proposal amb node context) ∧
      Stored D (D.enqueue amb q node context).1 (node.id, amb.ulid) := by
  by_cases hon : D.enabled ∧ (validateDecisionTrace (D.trace amb node)).ok
  · obtain ⟨henabled, htrace⟩ := hon
    obtain ⟨hret, hget⟩ := enqueue_accepted D amb q node context henabled htrace hfresh
    refine .inr ⟨hret, hget, henabled, validate_approvalTrace.1 htrace, ?_, _, hget, rfl, rfl, rfl,
      node, context, rfl, rfl⟩
    intro rows hrows
    rw [enqueue_eq, if_pos ⟨henabled, htrace⟩] at hrows
    obtain ⟨hid, hcache, hnone⟩ := hfresh
    have hid' : (D.proposal amb node context).id ≠ "" := hid
    rw [ApprovalQueue.insert, if_neg hid'] at hrows
    have hcache' : (q.cache.lookup (D.proposal amb node context).id).isSome = false := by
      show (q.get amb.ulid).isSome = false
      rw [hcache]
      rfl
    cases hstore : q.store with
    | none =>
      simp only [hstore, hcache', Bool.false_eq_true, if_false] at hrows
      cases hrows
    | some rows0 =>
      rw [hstore] at hnone
      simp only [hstore, insertApprovalProposal_unused rows0
        (toRecord D.deps.digest (D.proposal amb node context)) hid hnone] at hrows
      cases hrows
      show (lookup amb.ulid (insert amb.ulid _ rows0)).isSome
      rw [lookup_insert]
      rfl
  · left
    rw [enqueue_eq, if_neg hon]

end

/-! ## whose turn it is -/

section
variable {τ : Type} (D : Desk τ)

/-- the newest call, and where the engine is or has been left -/
inductive Turn : List Task → Option (Request × Point) → Resuming → Prop
  | execute {x} : Turn [.execute (.executing D.setup x)] none (.executing D.setup x)
  | review {r rest p q} (hat : r.At D p)
      (hplace : ∀ cur q', p = .resuming cur q' → q' = q)
      (hback : (∀ cur q', p ≠ .resuming cur q') → q.out.isSome)
      (hrest : ∀ t ∈ rest, t.ended) : Turn (.review r :: rest) (some (r.request, p)) q

/-- where a call begins: with autonomy off it is over at once -/
def Desk.point : Point := if D.enabled then .reading else .returned

inductive TurnStep (w : World τ) :
    Option (Request × Point) → Resuming → World τ → Option (Request × Point) → Resuming → Prop
  | execute {q q' e amb w'}
      (hallow : q.Allows kindly e) (hfresh : w.Fresh q e amb)
      (h : EngineMoves D w q e amb w' q') : TurnStep w none q w' none q'
  | engine {request cur q q' e amb w'} (hallow : q.Allows kindly e)
      (hfresh : w.Fresh q e amb) (hout : q.out = none)
      (h : EngineMoves D w q e amb w' q') :
      TurnStep w (some (request, .resuming cur q)) q w' (some (request, .resuming cur q')) q'
  | entered {request cur q} (hout : q.out.isSome)
      (hcheck : D.applierCheck w.store cur = none) :
      TurnStep w (some (request, .entering cur)) q (w.calls cur)
        (some (request, .resuming cur .getting)) .getting
  | other {request p p' q e amb w'} (hout : q.out.isSome) (hp : ∀ cur q', p = .resuming cur q' → q' = q)
      (hp' : ∀ cur q', p' ≠ .resuming cur q') (h : PointStep D w request p e amb w' p') :
      TurnStep w (some (request, p)) q w' (some (request, p')) q

end

section
variable {τ : Type} {D : Desk τ} {w w' : World τ} {q q' : Resuming} {r : Review} {p : Point}
  {tasks : List Task} {c : Option (Request × Point)}

lemma at_task (request : Request) : ∃ r, request.task D = .review r ∧ r.request = request ∧
    r.At D D.point := by
  refine ⟨_, rfl, rfl, ?_⟩
  cases hon : D.enabled with
  | true =>
    rw [Desk.point, if_pos hon]
    exact ⟨rfl, rfl, hon⟩
  | false =>
    rw [Desk.point, hon, if_neg Bool.false_ne_true]
    refine ⟨⟨.ok false, ?_⟩, rfl⟩
    cases request with
    | approve nowMs id reviewer =>
      show approveProg D.deps D.enabled nowMs id reviewer = _
      rw [approveProg, hon]
      rfl
    | apply id =>
      show applyProg D.deps D.enabled id = _
      rw [applyProg, hon]
      rfl

lemma rest_of_at (hat : r.At D p) (hp : p ≠ .returned) : ∃ c k, r.rest = .call c k := by
  cases p with
  | reading =>
    obtain ⟨hrest, -, hon⟩ := hat
    exact ⟨_, _, hrest.trans (Request.prog_eq hon r.request)⟩
  | returned => exact absurd rfl hp
  | _ => exact ⟨_, _, hat.1⟩

lemma Engine.not_escaped (h : Engine D w q) :
    q ≠ .escaped ∧ ∀ S x, q = .executing S x → x.phase ≠ .escaped := by
  obtain ⟨begun, hsession⟩ := h.session
  constructor
  · rintro rfl
    exact hsession.place
  · rintro S x rfl
    have hkept : Kept D.setup S x w.store (w.asked.map Prod.fst) := h.place
    exact hkept.stage.caught

lemma Engine.out_of_ended (h : Engine D w q) (hended : q.ended) : q.out.isSome := by
  obtain ⟨hesc, hphase⟩ := h.not_escaped
  cases q with
  | refused out => rfl
  | escaped => exact absurd rfl hesc
  | executing S x =>
    have hne := hphase S x rfl
    simp only [Resuming.ended] at hended
    simp only [Resuming.out]
    cases hp : x.phase <;> simp [hp, Phase.ended] at hended hne ⊢
  | _ => cases hended

lemma Turn.over_of_ended (h : Turn D tasks c q) (hengine : Engine D w q)
    (hended : ∀ t ∈ tasks, t.ended) :
    (c = none ∨ ∃ request, c = some (request, .returned)) ∧ q.out.isSome := by
  cases h with
  | execute => exact ⟨.inl rfl, hengine.out_of_ended (hended _ mem_cons_self)⟩
  | @review r rest p q hat hplace hback hrest =>
    have hover : p = .returned := by
      by_contra hne
      obtain ⟨c, k, hcall⟩ := rest_of_at hat hne
      have hend := hended _ mem_cons_self
      simp only [Task.ended, hcall] at hend
      obtain ⟨hesc, hphase⟩ := hengine.not_escaped
      cases p with
      | resuming cur q' =>
        obtain rfl := hplace cur q' rfl
        rw [hat.2] at hend
        cases q' with
        | escaped => exact hesc rfl
        | executing S x => exact hphase S x rfl (by simpa using hend)
        | _ => cases hend
      | returned => exact hne rfl
      | reading =>
        rw [hat.2.1] at hend
        cases hend
      | _ =>
        rw [hat.2] at hend
        cases hend
    subst hover
    exact ⟨.inr ⟨_, rfl⟩, hback (fun cur q' h => by cases h)⟩

lemma EngineMoves.executing {S : Setup} {x : Exec} {e : CallEvent} {amb : Ambient}
    (h : EngineMoves D w (.executing S x) e amb w' q') : ∃ x', q' = .executing S x' := by
  cases h with
  | plain hask hstep =>
    cases advances_of_step hstep with
    | thrown hnext => cases hnext
    | exec hx => exact ⟨_, rfl⟩
  | asks hr hpc hcb hstep hx => exact ⟨_, rfl⟩

lemma Turn.reviewed {rest : List Task} {e : CallEvent} {amb : Ambient} {t : Task} (hat : r.At D p)
    (hplace : ∀ cur q', p = .resuming cur q' → q' = q)
    (hback : (∀ cur q', p ≠ .resuming cur q') → q.out.isSome) (hrest : ∀ t ∈ rest, t.ended)
    (hsource : ∀ cur, p = .entering cur ∨ (∃ q, p = .resuming cur q) → cur.source = .workflow)
    (hallow : ∀ q, r.place = some q → q.Allows kindly e ∧ w.Fresh q e amb)
    (h : Works D w e amb (.review r) w' t) :
    ∃ c' q', t.request = some r.request ∧ Turn D (t :: rest) c' q' ∧
      TurnStep D w (some (r.request, p)) q w' c' q' := by
  obtain ⟨r', p', rfl, hreq, hat', hstep⟩ := h.point hat hsource
  have hturn : ∀ {q'}, (∀ cur q1, p' = .resuming cur q1 → q1 = q') →
      ((∀ cur q1, p' ≠ .resuming cur q1) → q'.out.isSome) →
      Turn D (.review r' :: rest) (some (r.request, p')) q' := by
    intro q' hp hb
    rw [← hreq]
    exact .review hat' hp hb hrest
  have hother : q.out.isSome → (∀ cur q', p' ≠ .resuming cur q') →
      ∃ c' q', (Task.review r').request = some r.request ∧ Turn D (.review r' :: rest) c' q' ∧
        TurnStep D w (some (r.request, p)) q w' c' q' := by
    intro hout hp'
    refine ⟨_, q, congrArg some hreq, hturn (fun cur q1 heq => absurd heq (hp' cur q1))
      (fun _ => hout), .other hout hplace hp' hstep⟩
  cases hstep with
  | @engine _ _ cur q1 q' _ hout hm =>
    obtain rfl := hplace cur q1 rfl
    obtain ⟨hal, hfresh⟩ := hallow q1 hat.2
    refine ⟨_, q', congrArg some hreq, hturn (fun cur q2 heq => by cases heq; rfl)
      (fun hne => absurd rfl (hne cur q')), .engine hal hfresh hout hm⟩
  | @entered _ _ cur hcheck =>
    refine ⟨_, .getting, congrArg some hreq, hturn (fun cur q2 heq => by cases heq; rfl)
      (fun hne => absurd rfl (hne cur .getting)), .entered (hback (fun _ _ h => by cases h)) hcheck⟩
  | @granted _ _ cur q1 out v hout hv hok =>
    obtain rfl := hplace cur q1 rfl
    exact hother (by rw [hout]; rfl) (fun _ _ h => by cases h)
  | @turned _ _ cur q1 _ out hout hno hp =>
    obtain rfl := hplace cur q1 rfl
    refine hother (by rw [hout]; rfl) fun _ _ h => ?_
    rcases hp with rfl | rfl <;> cases h
  | @reads _ _ cur _ hget hfits hp =>
    refine hother (hback (fun _ _ h => by cases h)) fun _ _ h => ?_
    rw [hp] at h
    split at h <;> cases h
  | refused hcheck hp | undoes hp =>
    refine hother (hback (fun _ _ h => by cases h)) fun _ _ h => ?_
    rcases hp with rfl | rfl <;> cases h
  | skips | approves | applies | closes =>
    exact hother (hback (fun _ _ h => by cases h)) (fun _ _ h => by cases h)

lemma drive_cases {s s' : System τ} (hturn : Turn D s.tasks c q) (hengine : Engine D s.world q)
    (hsource : ∀ request p, c = some (request, p) → ∀ cur,
      p = .entering cur ∨ (∃ q, p = .resuming cur q) → cur.source = .workflow)
    (hst : DriveStep D s s') :
    (∃ request, Drives s (.begin request) ∧ s' = { s with tasks := request.task D :: s.tasks } ∧
        (c = none ∨ ∃ req, c = some (req, .returned)) ∧ q.out.isSome ∧
        Turn D s'.tasks (some (request, D.point)) q) ∨
      ∃ c' q', s'.tasks.map request = s.tasks.map request ∧ Turn D s'.tasks c' q' ∧
        TurnStep D s.world c q s'.world c' q' := by
  obtain ⟨w, tasks⟩ := s
  obtain ⟨ev, hdrives, hstep⟩ := hst
  cases ev with
  | begin request =>
    left
    cases hstep
    have hended : ∀ t ∈ tasks, t.ended := by
      cases request with
      | approve nowMs id reviewer | apply id => exact hdrives.1
    obtain ⟨hc, hout⟩ := hturn.over_of_ended hengine hended
    obtain ⟨r, htask, rfl, hat⟩ := at_task (D := D) request
    refine ⟨r.request, hdrives, rfl, hc, hout, ?_⟩
    rw [htask]
    refine .review hat (fun cur q' h => ?_) (fun _ => hout) hended
    unfold Desk.point at h
    split at h <;> cases h
  | step i e amb =>
    right
    obtain ⟨rfl, hallow⟩ := hdrives
    obtain ⟨t, ht, hstep⟩ := bind_eq_some_iff.1 hstep
    obtain ⟨⟨w', t'⟩, htask, rfl⟩ := map_eq_some_iff.1 hstep
    have hworks := works_of_step htask
    cases hturn with
    | @execute x =>
      cases ht
      cases hworks with
      | execute hm =>
        obtain ⟨x', rfl⟩ := hm.executing
        obtain ⟨hal, hfresh⟩ := hallow _ rfl _ rfl
        exact ⟨none, _, rfl, .execute, .execute hal hfresh hm⟩
    | @review r rest p q hat hplace hback hrest =>
      cases ht
      obtain ⟨c', q', hreq, hturn, hstep⟩ := Turn.reviewed hat hplace hback hrest
        (hsource _ _ rfl) (fun q hq => hallow _ rfl q hq) hworks
      refine ⟨c', q', ?_, hturn, hstep⟩
      show t'.request :: rest.map request = some r.request :: rest.map request
      rw [hreq]

end

/-! ## at most one proposal is applied -/

def Applied (q : ApprovalQueue) (a : String × String) : Prop :=
  a.2 ≠ "" ∧ ∃ p, q.get a.2 = some p ∧ p.state = .applied

section
variable {τ : Type} (D : Desk τ)

/-- what an `apply` shows that has come to its `resume`, for the proposal of the node `n` -/
structure Desk.Passed (n : String) : Prop where
  env : isAutonomyEnabled D.env
  applier : (D.deps.appliers .workflow).isSome
  named : D.setup.runId ≠ ""
  run : scrubStr D.piiFilter D.setup.runId = D.setup.runId
  node : scrubStr D.piiFilter n ≠ ""
  hash : scrubStr D.piiFilter D.dslHash = "" ∨ scrubStr D.piiFilter D.dslHash = D.dslHash

/-- past its checks, `resume` has read the workflow back -/
def Desk.ReadBack : Resuming → Prop
  | .listing _ _ | .marking _ _ _ _ | .executing _ _ => ∀ n ∈ D.setup.dsl.nodes, n.id ≠ ""
  | _ => True

variable (w : World τ)

def Won : Prop := ∃ a ∈ w.asked, Applied w.shared.queue a

/-- what holds at a place: what was read is still there -/
def PointOk (request : Request) : Point → Prop
  | .reading | .returned => True
  | .approving cur => w.shared.queue.get request.id = some cur ∧
      ∃ nowMs id reviewer, request = .approve nowMs id reviewer
  | .entering cur => w.shared.queue.get request.id = some cur ∧ (D.deps.appliers .workflow).isSome
  | .resuming cur q => w.shared.queue.get request.id = some cur ∧
      (∀ a ∈ w.asked, a.2 = request.id → D.Passed a.1) ∧ D.ReadBack q
  | .applying cur => w.shared.queue.get request.id = some cur ∧
      (∀ a ∈ w.asked, a.2 = request.id → D.Passed a.1) ∧
      (∀ n ∈ D.setup.dsl.nodes, n.id ≠ "") ∧ w.store.Succeeded ∧ ¬ Won w
  | .undoing cur | .closing cur => w.shared.queue.get request.id = some cur

/-- the proposals of a run: stored under their own ids, and applied only by a `resume` that brought
the run to its end -/
structure Verdicts (c : Option (Request × Point)) : Prop where
  stored : ∀ a ∈ w.asked, a.2 ≠ "" → Stored D w.shared.queue a
  distinct : ∀ a ∈ w.asked, ∀ b ∈ w.asked, a.2 ≠ "" → a.2 = b.2 → a = b
  asked : ∀ request p, c = some (request, p) → ∃ a ∈ w.asked, a.2 = request.id ∧ a.2 ≠ ""
  point : ∀ request p, c = some (request, p) → PointOk D w request p
  first : c = none → ¬ Won w
  won : ∀ a ∈ w.asked, Applied w.shared.queue a → D.Passed a.1 ∧
    (∀ n ∈ D.setup.dsl.nodes, n.id ≠ "") ∧ w.store.Succeeded
  late : Won w → ∀ request cur q, c = some (request, .resuming cur q) →
    q = .getting ∨ ∃ out, q = .refused out ∧ out.ok = false
  one : ∀ a ∈ w.asked, ∀ b ∈ w.asked, Applied w.shared.queue a → Applied w.shared.queue b → a = b

end

section
variable {τ : Type} {D : Desk τ} {w w' : World τ} {q q' : Resuming} {p : Point} {request : Request}
  {c : Option (Request × Point)} {cur : ApprovalProposal} {amb : Ambient} {e : CallEvent}
  {p' : Point} {st : Store}

lemma passed_of_check {n : String} (hcarries : D.Carries n cur) (hstores : D.Stores st)
    (happlier : (D.deps.appliers .workflow).isSome) (h : D.applierCheck st cur = none) :
    D.Passed n := by
  obtain ⟨node, context, rfl, hpayload⟩ := hcarries.payload
  have hextract := extract_approvalPayload hpayload
  unfold Desk.applierCheck at h
  split at h
  · cases h
  · next henv =>
    have henv : isAutonomyEnabled D.env := by simpa using henv
    by_cases hempty : scrubStr D.piiFilter D.setup.runId = "" ∨ scrubStr D.piiFilter node.id = ""
    · rw [hextract, if_pos hempty] at h
      cases h
    · rw [hextract, if_neg hempty] at h
      simp only at h
      push Not at hempty
      split at h
      · cases h
      · next hash hhash =>
        unfold Desk.runHash at hhash
        split at hhash
        · next hrun =>
          obtain ⟨r, hr, rfl⟩ := map_eq_some_iff.1 hhash
          rw [(hstores r hr).2] at h
          split at h
          · cases h
          · next hno =>
            refine ⟨henv, happlier, ?_, hrun, hempty.2, ?_⟩
            · rw [← hrun]
              exact hempty.1
            · by_contra hne
              push Not at hne
              exact hno hne
        · cases hhash

lemma EngineMoves.frame (h : EngineMoves D w q e amb w' q')
    (hfresh : w.Fresh q e amb)
    (hstored : ∀ a ∈ w.asked, a.2 ≠ "" → Stored D w.shared.queue a) :
    (∀ a ∈ w'.asked, a.2 ≠ "" → Stored D w'.shared.queue a) ∧
      (∀ a ∈ w.asked, a.2 ≠ "" → w'.shared.queue.get a.2 = w.shared.queue.get a.2) ∧
      (w'.asked = w.asked ∨ ∃ a, w'.asked = a :: w.asked ∧ w'.store = w.store ∧
        (a.2 ≠ "" → w.shared.queue.get a.2 = none ∧
          ∃ p, w'.shared.queue.get a.2 = some p ∧ p.state = .proposed)) := by
  cases h with
  | plain hask hstep => exact ⟨hstored, fun _ _ _ => rfl, .inl rfl⟩
  | @asks S x x' l r job amb hr hpc hcb hstep hx =>
    have hfresh : Unused w.shared.queue amb.ulid := by
      refine hfresh ?_
      rw [asking_askApproval hr hpc hcb]
      rfl
    have hold : ∀ a ∈ w.asked, a.2 ≠ "" →
        (w.enqueued D amb job.node S.context).shared.queue.get a.2 = w.shared.queue.get a.2 ∧
          Stored D (w.enqueued D amb job.node S.context).shared.queue a :=
      fun a ha hne => (hstored a ha hne).enqueue hfresh
    have hnew : (job.node.id, (D.enqueue amb w.shared.queue job.node S.context).2.toOption.getD "").2
          ≠ "" →
        Stored D (D.enqueue amb w.shared.queue job.node S.context).1 (job.node.id, amb.ulid) ∧
          (D.enqueue amb w.shared.queue job.node S.context).2.toOption.getD "" = amb.ulid ∧
          (D.enqueue amb w.shared.queue job.node S.context).1.get amb.ulid =
            some (D.proposal amb job.node S.context) := by
      intro hne
      rcases stored_enqueued D amb job.node S.context hfresh with
        hno | ⟨hid, hget, hst⟩
      · rw [hno] at hne
        exact absurd rfl hne
      · exact ⟨hst, by rw [hid]; rfl, hget⟩
    refine ⟨?_, fun a ha hne => (hold a ha hne).1, .inr ⟨_, rfl, rfl, fun hne => ?_⟩⟩
    · intro a ha hne
      rcases mem_cons.1 ha with rfl | ha
      · obtain ⟨hst, heq, -⟩ := hnew hne
        rw [heq]
        exact hst
      · exact (hold a ha hne).2
    · obtain ⟨-, heq, hget⟩ := hnew hne
      refine ⟨?_, D.proposal amb job.node S.context, ?_, rfl⟩
      · rw [heq]
        exact hfresh.2.1
      · rw [heq]
        exact hget

lemma Verdicts.engine_frame (h : Verdicts D w c) (hm : EngineMoves D w q e amb w' q')
    (hfresh : w.Fresh q e amb) :
    (∀ a ∈ w'.asked, a.2 ≠ "" → Stored D w'.shared.queue a) ∧
      (∀ a ∈ w'.asked, ∀ b ∈ w'.asked, a.2 ≠ "" → a.2 = b.2 → a = b) ∧
      (∀ a ∈ w.asked, a ∈ w'.asked ∧
        (a.2 ≠ "" → w'.shared.queue.get a.2 = w.shared.queue.get a.2)) ∧
      ∀ a ∈ w'.asked, Applied w'.shared.queue a → a ∈ w.asked ∧ Applied w.shared.queue a := by
  obtain ⟨hstored, hget, hasked⟩ := hm.frame hfresh h.stored
  have hback : ∀ a ∈ w.asked, Applied w'.shared.queue a → Applied w.shared.queue a := by
    rintro a ha ⟨hne, p, hp, hstate⟩
    rw [hget a ha hne] at hp
    exact ⟨hne, p, hp, hstate⟩
  refine ⟨hstored, ?_, ?_, ?_⟩
  · rcases hasked with heq | ⟨a0, heq, -, hnew⟩
    · rw [heq]
      exact h.distinct
    · rw [heq]
      -- the new id is the id of no old proposal
      have hother : ∀ a ∈ w.asked, a.2 ≠ "" → a.2 ≠ a0.2 := by
        intro a ha hne hid
        obtain ⟨p, hp, -⟩ := (h.stored a ha hne).held
        rw [hid] at hne hp
        rw [(hnew hne).1] at hp
        cases hp
      intro a ha b hb hne hid
      rcases mem_cons.1 ha with rfl | ha' <;> rcases mem_cons.1 hb with rfl | hb'
      · rfl
      · exact absurd hid.symm (hother b hb' (hid ▸ hne))
      · exact absurd hid (hother a ha' hne)
      · exact h.distinct a ha' b hb' hne hid
  · intro a ha
    refine ⟨?_, hget a ha⟩
    rcases hasked with heq | ⟨a0, heq, -⟩ <;> rw [heq]
    · exact ha
    · exact mem_cons_of_mem a0 ha
  · intro a ha happlied
    rcases hasked with heq | ⟨a0, heq, -, hnew⟩
    · rw [heq] at ha
      exact ⟨ha, hback a ha happlied⟩
    · rw [heq] at ha
      rcases mem_cons.1 ha with rfl | ha
      · obtain ⟨hne, p, hp, hstate⟩ := happlied
        obtain ⟨-, p', hp', hstate'⟩ := hnew hne
        rw [hp] at hp'
        cases hp'
        rw [hstate] at hstate'
        cases hstate'
      · exact ⟨ha, hback a ha happlied⟩

lemma Verdicts.execute (h : Verdicts D w none) (hm : EngineMoves D w q e amb w' q')
    (hfresh : w.Fresh q e amb) : Verdicts D w' none := by
  obtain ⟨hstored, hdistinct, -, hback⟩ := h.engine_frame hm hfresh
  have hnot : ¬ Won w' := by
    rintro ⟨a, ha, happlied⟩
    exact h.first rfl ⟨a, hback a ha happlied⟩
  exact ⟨hstored, hdistinct, (fun _ _ hc => by cases hc), (fun _ _ hc => by cases hc), fun _ => hnot,
    fun a ha happlied => absurd ⟨a, ha, happlied⟩ hnot, (fun _ _ _ _ hc => by cases hc),
    fun a ha b _ happlied _ => absurd ⟨a, ha, happlied⟩ hnot⟩

lemma EngineMoves.getting (hallow : Resuming.getting.Allows kindly e)
    (h : EngineMoves D w .getting e amb w' q') : w' = w ∧ q' = checked D.setup w.store.run := by
  cases h with
  | plain hask hstep =>
    cases e with
    | returned =>
      cases hstep
      exact ⟨rfl, rfl⟩
    | thrown => exact absurd hallow id
    | exec e => cases hstep

lemma EngineMoves.readBack (h : EngineMoves D w q e amb w' q') (hstores : D.Stores w.store)
    (hq : D.ReadBack q) : D.ReadBack q' := by
  cases h with
  | asks => exact hq
  | plain hask hstep =>
    cases advances_of_step hstep with
    | checked =>
      rcases checked_cases D.setup w.store with ⟨out, hc, -⟩ | hc | ⟨dsl, context, hc, r, hr, -, hdsl, -⟩
      · rw [hc]
        trivial
      · rw [hc]
        trivial
      · rw [hc]
        rw [(hstores r hr).1] at hdsl
        show ∀ n ∈ D.setup.dsl.nodes, n.id ≠ ""
        rw [← nodes_of_fromJson hdsl]
        exact fromJson_ids hdsl
    | failed | thrown => trivial
    | listed | marked | reenters | exec => exact hq

lemma Verdicts.engine (h : Verdicts D w (some (request, .resuming cur q)))
    (hstores : D.Stores w.store) (hallow : q.Allows kindly e)
    (hfresh : w.Fresh q e amb) (hout : q.out = none)
    (hm : EngineMoves D w q e amb w' q') : Verdicts D w' (some (request, .resuming cur q')) := by
  obtain ⟨hstored, hdistinct, hkept, hback⟩ := h.engine_frame hm hfresh
  obtain ⟨a0, ha0, hid, hne⟩ := h.asked _ _ rfl
  obtain ⟨hget, hpassed, hread⟩ := h.point _ _ rfl
  have hwon : Won w' → w' = w ∧ q' = checked D.setup w.store.run ∧ w.store.Succeeded := by
    rintro ⟨a, ha, happlied⟩
    obtain ⟨ha, happlied⟩ := hback a ha happlied
    rcases h.late ⟨a, ha, happlied⟩ _ _ _ rfl with rfl | ⟨out, rfl, -⟩
    · obtain ⟨rfl, rfl⟩ := hm.getting hallow
      exact ⟨rfl, rfl, (h.won a ha happlied).2.2⟩
    · cases hout
  refine ⟨hstored, hdistinct, ?_, ?_, nofun, ?_, ?_, ?_⟩
  · rintro _ _ hc
    cases hc
    exact ⟨a0, (hkept a0 ha0).1, hid, hne⟩
  · rintro _ _ hc
    cases hc
    refine ⟨?_, ?_, hm.readBack hstores hread⟩
    · rw [← hid, (hkept a0 ha0).2 hne, hid]
      exact hget
    · intro a ha haid
      have heq : a = a0 := hdistinct a ha a0 (hkept a0 ha0).1
        (by rw [haid, ← hid]; exact hne) (haid.trans hid.symm)
      rw [heq]
      exact hpassed a0 ha0 hid
  · intro a ha happlied
    obtain ⟨rfl, -, -⟩ := hwon ⟨a, ha, happlied⟩
    exact h.won a ha happlied
  · rintro hw _ _ _ hc
    cases hc
    obtain ⟨-, rfl, hsucceeded⟩ := hwon hw
    obtain ⟨r, hr, hstatus⟩ := hsucceeded
    refine .inr ⟨{ errorMessage := "run_not_paused", finalStatus := r.status }, ?_, rfl⟩
    rw [hr, checked, if_pos (by rw [hstatus]; simp)]
  · intro a ha b hb happlied happlied'
    obtain ⟨ha, happlied⟩ := hback a ha happlied
    obtain ⟨hb, happlied'⟩ := hback b hb happlied'
    exact h.one a ha b hb happlied happlied'

section
variable (h : Verdicts D w (some (request, p)))
include h

lemma Verdicts.next (hqueue : w'.shared.queue = w.shared.queue) (hasked : w'.asked = w.asked)
    (hstore : w'.store = w.store) (hpoint : PointOk D w' request p')
    (hlate : ∀ cur q, p' = .resuming cur q → q = .getting) :
    Verdicts D w' (some (request, p')) := by
  refine ⟨?_, ?_, ?_, ?_, (fun hc => by cases hc), ?_, ?_, ?_⟩
  · rw [hasked, hqueue]
    exact h.stored
  · rw [hasked]
    exact h.distinct
  · rintro _ _ hc
    cases hc
    rw [hasked]
    exact h.asked _ _ rfl
  · rintro _ _ hc
    cases hc
    exact hpoint
  · rw [hasked, hqueue, hstore]
    exact h.won
  · rintro - _ cur q hc
    cases hc
    exact .inl (hlate cur q rfl)
  · rw [hasked, hqueue]
    exact h.one

/-- the proposal that was read is written back in another state; if that is `applied`, the run has
succeeded, and nothing was applied before -/
lemma Verdicts.write {p1 : ApprovalProposal} (hget : w.shared.queue.get request.id = some cur)
    (hp1 : p1 = { cur with
      state := p1.state, reviewerUserId := p1.reviewerUserId, reviewedAtMs := p1.reviewedAtMs })
    (happlied : p1.state = .applied → (∀ a ∈ w.asked, a.2 = request.id → D.Passed a.1) ∧
      (∀ n ∈ D.setup.dsl.nodes, n.id ≠ "") ∧ w.store.Succeeded ∧ ¬ Won w) :
    Verdicts D (w.updated D p1) (some (request, .returned)) := by
  obtain ⟨a0, ha0, hid, hne⟩ := h.asked _ _ rfl
  have hstored := h.stored a0 ha0 hne
  have hcarries : p1.id = a0.2 ∧ D.Carries a0.1 p1 := by
    obtain ⟨p, hp, hpid, hc⟩ := hstored.held
    rw [hid, hget] at hp
    cases hp
    rw [hp1]
    exact ⟨hpid, hc.congr rfl rfl rfl⟩
  obtain ⟨hget0, hstored0⟩ := hstored.update hne hcarries.1 hcarries.2
  have hother : ∀ a ∈ w.asked, a.2 ≠ "" → a ≠ a0 →
      (w.updated D p1).shared.queue.get a.2 = w.shared.queue.get a.2 ∧
        Stored D (w.updated D p1).shared.queue a := by
    intro a ha hane hne0
    refine (h.stored a ha hane).update_ne ?_
    rw [hcarries.1]
    exact fun heq => hne0 (h.distinct a ha a0 ha0 hane heq.symm)
  have hback : ∀ a ∈ w.asked, Applied (w.updated D p1).shared.queue a →
      a = a0 ∧ p1.state = .applied ∨ Applied w.shared.queue a := by
    rintro a ha ⟨hane, p', hp', hstate⟩
    by_cases heq : a = a0
    · subst heq
      have hsame : some p1 = some p' := hget0.symm.trans hp'
      cases hsame
      exact .inl ⟨rfl, hstate⟩
    · rw [(hother a ha hane heq).1] at hp'
      exact .inr ⟨hane, p', hp', hstate⟩
  refine ⟨?_, h.distinct, ?_, ?_, (fun hc => by cases hc), ?_, (fun _ _ _ _ hc => by cases hc), ?_⟩
  · intro a ha hane
    by_cases heq : a = a0
    · subst heq
      exact hstored0
    · exact (hother a ha hane heq).2
  · rintro _ _ hc
    cases hc
    exact ⟨a0, ha0, hid, hne⟩
  · rintro _ _ hc
    cases hc
    trivial
  · intro a ha hap
    rcases hback a ha hap with ⟨rfl, hstate⟩ | hap
    · obtain ⟨hpassed, hids, hsucceeded, -⟩ := happlied hstate
      exact ⟨hpassed a ha hid, hids, hsucceeded⟩
    · exact h.won a ha hap
  · intro a ha b hb hap hap'
    rcases hback a ha hap with ⟨rfl, hstate⟩ | hap <;> rcases hback b hb hap' with ⟨rfl, hstate'⟩ | hap'
    · rfl
    · exact absurd ⟨b, hb, hap'⟩ (happlied hstate).2.2.2
    · exact absurd ⟨a, ha, hap⟩ (happlied hstate').2.2.2
    · exact h.one a ha b hb hap hap'

lemma Verdicts.carries (hget : w.shared.queue.get request.id = some cur) :
    ∃ a ∈ w.asked, a.2 = request.id ∧ D.Carries a.1 cur := by
  obtain ⟨a, ha, hid, hne⟩ := h.asked _ _ rfl
  obtain ⟨p', hp', -, hcarries⟩ := (h.stored a ha hne).held
  rw [hid, hget] at hp'
  cases hp'
  exact ⟨a, ha, hid, hcarries⟩

end

lemma Verdicts.entered (h : Verdicts D w (some (request, .entering cur)))
    (hstores : D.Stores w.store) (hcheck : D.applierCheck w.store cur = none) :
    Verdicts D (w.calls cur) (some (request, .resuming cur .getting)) := by
  obtain ⟨hget, happlier⟩ := h.point _ _ rfl
  obtain ⟨a0, ha0, hid, hcarries⟩ := h.carries hget
  refine h.next rfl rfl rfl ⟨hget, ?_, trivial⟩ (fun _ _ heq => by cases heq; rfl)
  intro a ha haid
  obtain ⟨b, hb, hbid, hbne⟩ := h.asked _ _ rfl
  have heq : a = a0 :=
    h.distinct a ha a0 ha0 (by rw [haid, ← hbid]; exact hbne) (haid.trans hid.symm)
  rw [heq]
  exact passed_of_check hcarries hstores happlier hcheck

lemma Verdicts.other (h : Verdicts D w (some (request, p))) (hengine : Engine D w q)
    (hp : ∀ cur q', p = .resuming cur q' → q' = q) (hp' : ∀ cur q', p' ≠ .resuming cur q')
    (hstep : PointStep D w request p e amb w' p') : Verdicts D w' (some (request, p')) := by
  have hlate : ∀ cur q, p' = .resuming cur q → q = .getting := fun cur q heq => absurd heq (hp' cur q)
  have hok := h.point _ _ rfl
  cases hstep with
  | skips => exact h.next rfl rfl rfl trivial hlate
  | @reads _ _ cur _ hget hfits heq =>
    refine h.next rfl rfl rfl ?_ hlate
    cases request with
    | approve nowMs id reviewer =>
      rw [heq]
      exact ⟨hget, nowMs, id, reviewer, rfl⟩
    | apply id =>
      rw [heq]
      obtain ⟨a, -, -, hcarries⟩ := h.carries hget
      refine ⟨hget, ?_⟩
      rw [← hcarries.source]
      exact hfits.2.2
  | approves =>
    obtain ⟨hget, nowMs, id, reviewer, rfl⟩ := hok
    exact h.write hget rfl (fun hstate => by cases hstate)
  | refused hcheck hover =>
    refine h.next rfl rfl rfl ?_ hlate
    rcases hover with rfl | rfl
    · trivial
    · exact hok.1
  | entered | engine => exact absurd rfl (hp' _ _)
  | @granted _ _ cur q1 out v hout hv hsuccess =>
    obtain rfl := hp cur q1 rfl
    obtain ⟨hget, hpassed, hread⟩ := hok
    have hids : ∀ n ∈ D.setup.dsl.nodes, n.id ≠ "" := by
      obtain ⟨begun, hsession⟩ := hengine.session
      cases q1 with
      | executing S x => exact hread
      | refused out' =>
        cases hout
        have hno : out.ok = false := hsession.place
        rw [hno] at hsuccess
        cases hsuccess
      | _ => cases hout
    refine h.next rfl rfl rfl ⟨hget, hpassed, hids, hengine.succeeded hout hsuccess, ?_⟩ hlate
    intro hwon
    rcases h.late hwon _ _ _ rfl with rfl | ⟨out', rfl, hno⟩
    · cases hout
    · cases hout
      rw [hno] at hsuccess
      cases hsuccess
  | turned hout hno hover =>
    refine h.next rfl rfl rfl ?_ hlate
    rcases hover with rfl | rfl
    · trivial
    · exact hok.1
  | applies => exact h.write hok.1 rfl fun _ => hok.2
  | undoes hover =>
    refine h.next rfl rfl rfl ?_ hlate
    rcases hover with rfl | rfl
    · trivial
    · exact hok
  | closes => exact h.write hok rfl nofun

lemma Verdicts.begins (h : Verdicts D w c) (hasked : ∃ a ∈ w.asked, a.2 = request.id ∧ a.2 ≠ "") :
    Verdicts D w (some (request, D.point)) := by
  have hpoint : D.point = .reading ∨ D.point = .returned := by
    unfold Desk.point
    split
    · exact .inl rfl
    · exact .inr rfl
  refine ⟨h.stored, h.distinct, ?_, ?_, nofun, h.won, ?_, h.one⟩
  · rintro _ _ hc
    cases hc
    exact hasked
  · rintro _ _ hc
    cases hc
    rcases hpoint with heq | heq <;> rw [heq] <;> trivial
  · rintro - _ _ _ hc
    injection hc with hc
    have heq := (Prod.mk.inj hc).2
    rcases hpoint with hp | hp <;> rw [hp] at heq <;> cases heq

end

end AegisGate.Workflow
