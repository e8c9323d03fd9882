import AegisGate.Workflow.Sequential

/-!
# A run that is approved to its end

The reviewer of `Sequential` from the first call to the last.

* `Drive`  what holds in every state: whose turn it is, where the engine is, what has become
  of the proposals;
* `drive_halts`  the calls come to an end: a proposal is approved once and applied once, and there
  are no more proposals than approval nodes;
* `Straight`  the way of a run with one approval node;
* `sequential_approvals_iff`  all proposals are applied exactly when there is one.
-/

namespace AegisGate.Workflow

open Autonomy
open List Run

/-! ## every state -/

def System.requests {τ : Type} (s : System τ) : List Request := s.tasks.filterMap Task.request

/-- approvals and applications are told apart, and by their proposals -/
def Request.key : Request → Bool × String
  | .approve _ id _ => (false, id)
  | .apply id => (true, id)

section
variable {τ : Type} (D : Desk τ)

structure Drive (s : System τ) (c : Option (Request × Point)) (q : Resuming) : Prop where
  turn : Turn D s.tasks c q
  engine : Engine D s.world q
  verdicts : Verdicts D s.world c
  filed : ∀ r ∈ s.requests, r.id ≠ "" ∧ r.id ∈ s.world.asked.map Prod.snd
  once : (s.requests.map Request.key).Nodup

end

section
variable {τ : Type} {D : Desk τ} {s s' : System τ} {w w' : World τ} {c c' : Option (Request × Point)}
  {q q' : Resuming} {request : Request} {p p' : Point}

lemma mem_requests : request ∈ s.requests ↔ some request ∈ s.tasks.map Task.request := by
  simp only [System.requests, mem_filterMap, mem_map]

lemma mem_keys_approve {id : String} : (false, id) ∈ s.requests.map Request.key ↔
    ∃ nowMs reviewer, some (.approve nowMs id reviewer) ∈ s.tasks.map Task.request := by
  constructor
  · intro h
    obtain ⟨_ | _, hr, hkey⟩ := mem_map.1 h <;> cases hkey
    exact ⟨_, _, mem_requests.1 hr⟩
  · rintro ⟨nowMs, reviewer, hr⟩
    exact mem_map.2 ⟨_, mem_requests.2 hr, rfl⟩

lemma mem_keys_apply {id : String} : (true, id) ∈ s.requests.map Request.key ↔
    some (.apply id) ∈ s.tasks.map Task.request := by
  constructor
  · intro h
    obtain ⟨_ | _, hr, hkey⟩ := mem_map.1 h <;> cases hkey
    exact mem_requests.1 hr
  · exact fun hr => mem_map.2 ⟨_, mem_requests.2 hr, rfl⟩

lemma drives_begin_iff : Drives s (.begin request) ↔ (∀ t ∈ s.tasks, t.ended) ∧
    request.key ∉ s.requests.map Request.key ∧ match request with
      | .approve _ id _ => id ≠ "" ∧ id ∈ s.world.asked.map Prod.snd
      | .apply id => (false, id) ∈ s.requests.map Request.key := by
  cases request with
  | approve nowMs id reviewer =>
    simp only [Drives, Request.key, mem_keys_approve, not_exists]
    tauto
  | apply id =>
    simp only [Drives, Request.key, mem_keys_approve, mem_keys_apply]
    tauto

lemma requests_congr (h : s'.tasks.map Task.request = s.tasks.map Task.request) :
    s'.requests = s.requests := by
  have hmap : ∀ l : List Task, l.filterMap Task.request = (l.map Task.request).filterMap id := by
    intro l
    rw [filterMap_map]
    rfl
  rw [System.requests, System.requests, hmap, hmap, h]

lemma PointStep.frame {e : CallEvent} {amb : Ambient} (hp' : ∀ cur q', p' ≠ .resuming cur q')
    (h : PointStep D w request p e amb w' p') : w'.store = w.store ∧ w'.asked = w.asked := by
  cases h with
  | entered | engine => exact absurd rfl (hp' _ _)
  | _ => exact ⟨rfl, rfl⟩

lemma TurnStep.asked (h : TurnStep D w c q w' c' q') : ∀ a ∈ w.asked, a ∈ w'.asked := by
  have hengine : ∀ {e : CallEvent} {amb : Ambient}, EngineMoves D w q e amb w' q' →
      ∀ a ∈ w.asked, a ∈ w'.asked := by
    intro e amb hm a ha
    cases hm with
    | plain => exact ha
    | asks => exact mem_cons_of_mem _ ha
  cases h with
  | execute _ _ hm | engine _ _ _ hm => exact hengine hm
  | entered => exact fun _ ha => ha
  | other hout hp hp' hstep =>
    intro a ha
    rw [(hstep.frame hp').2]
    exact ha

lemma Engine.turn (htools : ToolsSucceed D.setup) (h : Engine D w q)
    (hstep : TurnStep D w c q w' c' q') : Engine D w' q' := by
  cases hstep with
  | execute hallow _ hm | engine hallow _ _ hm => exact h.step htools hallow hm
  | entered hout => exact (h.again htools hout).congr rfl rfl
  | other hout hp hp' hpoint =>
    obtain ⟨hstore, hasked⟩ := hpoint.frame hp'
    exact h.congr hstore hasked

lemma Verdicts.turn (h : Verdicts D w c) (hengine : Engine D w q)
    (hstep : TurnStep D w c q w' c' q') : Verdicts D w' c' := by
  cases hstep with
  | execute _ hfresh hm => exact h.execute hm hfresh
  | engine hallow hfresh hout hm => exact h.engine hengine.stores hallow hfresh hout hm
  | entered _ hcheck => exact h.entered hengine.stores hcheck
  | other hout hp hp' hpoint => exact h.other hengine hp hp' hpoint

lemma Verdicts.source (h : Verdicts D w c) (hc : c = some (request, p)) {cur : ApprovalProposal}
    (hp : p = .entering cur ∨ ∃ q, p = .resuming cur q) : cur.source = .workflow := by
  subst hc
  have hget : w.shared.queue.get request.id = some cur := by
    have hpoint := h.point _ _ rfl
    rcases hp with rfl | ⟨q, rfl⟩ <;> exact hpoint.1
  obtain ⟨a, -, -, hcarries⟩ := h.carries hget
  exact hcarries.source

lemma drive_opening (htools : ToolsSucceed D.setup) (shared : Shared τ) :
    Drive D (opening D shared) none (entering D.setup) where
  turn := .execute
  engine := engine_start htools shared
  verdicts := ⟨(fun a ha => by cases ha), (fun a ha => by cases ha), (fun _ _ hc => by cases hc),
    (fun _ _ hc => by cases hc), (fun _ ⟨a, ha, _⟩ => by cases ha), (fun a ha => by cases ha),
    (fun ⟨a, ha, _⟩ => by cases ha), fun a ha => by cases ha⟩
  filed r hr := by cases hr
  once := nodup_nil

lemma Drive.begins (h : Drive D s c q) (hdrives : Drives s (.begin request)) :
    (request.id ≠ "" ∧ request.id ∈ s.world.asked.map Prod.snd) ∧
      request.key ∉ s.requests.map Request.key := by
  obtain ⟨-, hnew, hcalled⟩ := drives_begin_iff.1 hdrives
  refine ⟨?_, hnew⟩
  cases request with
  | approve nowMs id reviewer => exact hcalled
  | apply id =>
    obtain ⟨nowMs, reviewer, hr⟩ := mem_keys_approve.1 hcalled
    exact h.filed (.approve nowMs id reviewer) (mem_requests.2 hr)

lemma Drive.step (htools : ToolsSucceed D.setup) (h : Drive D s c q) (hst : DriveStep D s s') :
    (∃ request, Drives s (.begin request) ∧ s' = { s with tasks := request.task D :: s.tasks } ∧
        (c = none ∨ ∃ req, c = some (req, .returned)) ∧ q.out.isSome ∧
        Drive D s' (some (request, D.point)) q) ∨
      ∃ c' q', s'.tasks.map Task.request = s.tasks.map Task.request ∧ Drive D s' c' q' ∧
        TurnStep D s.world c q s'.world c' q' := by
  rcases drive_cases h.turn h.engine (fun request p hc cur => h.verdicts.source hc) hst with
    ⟨request, hdrives, rfl, hc, hout, hturn⟩ | ⟨c', q', hreq, hturn, hstep⟩
  · left
    obtain ⟨⟨hne, hmem⟩, hnew⟩ := h.begins hdrives
    have hasked : ∃ a ∈ s.world.asked, a.2 = request.id ∧ a.2 ≠ "" := by
      obtain ⟨a, ha, hid⟩ := mem_map.1 hmem
      exact ⟨a, ha, hid, by rw [hid]; exact hne⟩
    refine ⟨request, hdrives, rfl, hc, hout, hturn, h.engine, h.verdicts.begins hasked, ?_, ?_⟩
    · exact forall_mem_cons.2 ⟨⟨hne, hmem⟩, h.filed⟩
    · exact nodup_cons.2 ⟨hnew, h.once⟩
  · right
    refine ⟨c', q', hreq, ⟨hturn, h.engine.turn htools hstep, h.verdicts.turn h.engine hstep, ?_, ?_⟩,
      hstep⟩
    · intro r hr
      rw [requests_congr hreq] at hr
      obtain ⟨hne, hmem⟩ := h.filed r hr
      obtain ⟨a, ha, hid⟩ := mem_map.1 hmem
      exact ⟨hne, mem_map.2 ⟨a, hstep.asked a ha, hid⟩⟩
    · rw [requests_congr hreq]
      exact h.once

lemma drive_of_reach (htools : ToolsSucceed D.setup) {shared : Shared τ}
    (h : Reach (DriveStep D) (opening D shared) s) : ∃ c q, Drive D s c q := by
  refine Reach.inv (I := fun s => ∃ c q, Drive D s c q) ?_ h
    ⟨none, _, drive_opening htools shared⟩
  rintro s t ⟨c, q, hs⟩ hst
  rcases hs.step htools hst with ⟨request, -, -, -, -, ht⟩ | ⟨c', q', -, ht, -⟩ <;>
    exact ⟨_, _, ht⟩

end

/-! ## the calls come to an end -/

def Point.rank : Point → ℕ
  | .reading => 6
  | .approving _ | .entering _ => 5
  | .resuming _ _ => 4
  | .applying _ | .undoing _ => 3
  | .closing _ => 2
  | .returned => 0

def turnRank : Option (Request × Point) → ℕ
  | none => 7
  | some (_, p) => p.rank

section
variable {τ : Type} {D : Desk τ} {s s' : System τ} {w w' : World τ} {c c' : Option (Request × Point)}
  {q q' : Resuming} {request : Request} {p p' : Point}

lemma EngineMoves.callStep {e : CallEvent} {amb : Ambient} (hallow : q.Allows kindly e)
    (h : EngineMoves D w q e amb w' q') : CallStep kindly D.setup (q, w.store) (q', w'.store) := by
  cases h with
  | plain hask hstep => exact ⟨_, hallow, hstep⟩
  | asks hr hpc hcb hstep hx =>
    refine ⟨_, hallow, ?_⟩
    show (Workflow.step _ _ _).map _ = _
    rw [hstep]
    rfl

lemma PointStep.rank_lt {e : CallEvent} {amb : Ambient} (hp' : ∀ cur q', p' ≠ .resuming cur q')
    (h : PointStep D w request p e amb w' p') : p'.rank < p.rank := by
  cases h with
  | entered | engine => exact absurd rfl (hp' _ _)
  | reads hget hfits hp =>
    rw [hp]
    cases request <;> simp [Point.rank]
  | refused _ hp | turned _ _ hp | undoes hp => rcases hp with rfl | rfl <;> simp [Point.rank]
  | _ => simp [Point.rank]

lemma TurnStep.rank (h : TurnStep D w c q w' c' q') : turnRank c' < turnRank c ∨
    turnRank c' = turnRank c ∧ CallStep kindly D.setup (q, w.store) (q', w'.store) := by
  cases h with
  | execute hallow _ hm | engine hallow _ _ hm => exact .inr ⟨rfl, hm.callStep hallow⟩
  | entered => exact .inl (by simp [turnRank, Point.rank])
  | other hout hp hp' hpoint => exact .inl (hpoint.rank_lt hp')

lemma Drive.requests_le (h : Drive D s c q) : s.requests.length ≤ 2 * D.setup.dsl.nodes.length := by
  have hasked : s.world.asked.length ≤ D.setup.dsl.nodes.length := by
    have hsub : s.world.asked.map Prod.fst ⊆ D.setup.dsl.nodes.map (·.id) := by
      intro id hid
      obtain ⟨a, ha, rfl⟩ := mem_map.1 hid
      obtain ⟨n, hn, hnid, -⟩ := h.engine.nodes a ha
      exact mem_map.2 ⟨n, hn, hnid⟩
    have hle := (subperm_of_subset h.engine.once hsub).length_le
    rwa [length_map, length_map] at hle
  have hsub : s.requests.map Request.key ⊆ (s.world.asked.map Prod.snd).map (Prod.mk false) ++
      (s.world.asked.map Prod.snd).map (Prod.mk true) := by
    intro k hk
    obtain ⟨r, hr, rfl⟩ := mem_map.1 hk
    have hid := (h.filed r hr).2
    cases r with
    | approve nowMs id reviewer => exact mem_append_left _ (mem_map_of_mem hid)
    | apply id => exact mem_append_right _ (mem_map_of_mem hid)
  have hle := (subperm_of_subset h.once hsub).length_le
  simp only [length_append, length_map] at hle
  omega

theorem drive_halts (htools : ToolsSucceed D.setup) (shared : Shared τ) :
    Halts (DriveStep D) (opening D shared) := by
  refine Halts.of_rank (S := CallStep kindly D.setup)
    (I := fun s n r => ∃ c q, Drive D s c q ∧
      n = 8 * (2 * D.setup.dsl.nodes.length - s.requests.length) + turnRank c ∧ r = (q, s.world.store))
    ?_ ?_ _ _ _ ⟨none, _, drive_opening htools shared, rfl, rfl⟩
  · rintro s n r ⟨c, q, -, -, rfl⟩
    exact halts_call kindly D.setup q s.world.store
  · rintro s n r t ⟨c, q, hs, rfl, rfl⟩ hst
    rcases hs.step htools hst with ⟨request, -, rfl, -, -, ht⟩ | ⟨c', q', hreq, ht, hstep⟩
    · refine ⟨_, _, ⟨_, _, ht, rfl, rfl⟩, .inl ?_⟩
      have hle := ht.requests_le
      have hone : System.requests { s with tasks := request.task D :: s.tasks } =
          request :: s.requests := rfl
      have hrank : turnRank (some (request, D.point)) ≤ 6 := by
        unfold Desk.point
        split <;> simp [turnRank, Point.rank]
      rw [hone, length_cons] at hle ⊢
      omega
    · refine ⟨_, _, ⟨c', q', ht, rfl, rfl⟩, ?_⟩
      rw [requests_congr hreq]
      rcases hstep.rank with hlt | ⟨heq, hcall⟩
      · exact .inl (Nat.add_lt_add_left hlt _)
      · exact .inr ⟨by rw [heq], hcall⟩

/-! ## … when all calls have returned -/

lemma Engine.steps (h : Engine D w q) (hout : q.out = none) :
    ∃ e amb t, q.Allows kindly e ∧ w.Fresh q e amb ∧ engineStep D w q e amb = some t := by
  obtain ⟨e, t, hallow, hcall⟩ := h.progress hout
  obtain ⟨id, hunused⟩ := w.shared.queue.exists_unused
  have hsome : ∃ t, engineStep D w q e ⟨0, id⟩ = some t := by
    unfold engineStep
    cases hask : q.asking e with
    | none =>
      rw [hcall]
      exact ⟨_, rfl⟩
    | some asked =>
      obtain ⟨node, context⟩ := asked
      have hanswer : e.answer = .pause true := by
        unfold Resuming.asking at hask
        split at hask
        · split at hask
          · next hcall => exact hallow _ hcall
          · cases hask
        · cases hask
      have hcallback :
          e.answer = callbackAnswer (D.enqueue ⟨0, id⟩ w.shared.queue node context).2 := by
        rw [hanswer]
        rcases stored_enqueued D ⟨0, id⟩ node context hunused with hno | ⟨hid, -⟩
        · rw [hno]
          rfl
        · rw [hid]
          rfl
      dsimp only
      rw [if_pos hcallback, hcall]
      exact ⟨_, rfl⟩
  obtain ⟨t, ht⟩ := hsome
  exact ⟨e, ⟨0, id⟩, t, hallow, fun _ => hunused, ht⟩

lemma Engine.reviews {r : Review} (h : Engine D w q) (hat : r.At D p) (hp : p ≠ .returned)
    (hplace : ∀ cur q', p = .resuming cur q' → q' = q)
    (hsource : ∀ cur, p = .entering cur ∨ (∃ q, p = .resuming cur q) → cur.source = .workflow) :
    ∃ e amb, (∀ q, r.place = some q → q.Allows kindly e ∧ w.Fresh q e amb) ∧
      ∃ t, reviewStep D w r e amb = some t := by
  have hfree : ∀ e amb, r.place = none →
      ∀ q, r.place = some q → q.Allows kindly e ∧ w.Fresh q e amb := by
    intro e amb hnone q hq
    rw [hnone] at hq
    cases hq
  have happlier : ∀ cur, cur.source = .workflow → r.rest = runApplierProg D.deps cur →
      ∀ e amb, reviewStep D w r e amb = applierStep D w r cur (afterApplier D cur) e amb := by
    intro cur hs hrest e amb
    rw [runApplierProg_eq] at hrest
    unfold reviewStep
    rw [hrest]
    exact if_pos hs
  cases p with
  | returned => exact absurd rfl hp
  | reading =>
    obtain ⟨hrest, hpl, hon⟩ := hat
    refine ⟨.returned, ⟨0, ""⟩, hfree _ _ hpl, ?_⟩
    unfold reviewStep
    rw [hrest, Request.prog_eq hon]
    exact ⟨_, rfl⟩
  | entering cur =>
    refine ⟨.returned, ⟨0, ""⟩, hfree _ _ hat.2, ?_⟩
    rw [happlier cur (hsource cur (.inl rfl)) hat.1, applierStep, hat.2]
    dsimp only
    split <;> exact ⟨_, rfl⟩
  | resuming cur q' =>
    obtain rfl := hplace cur q' rfl
    have hstep := happlier cur (hsource cur (.inr ⟨q', rfl⟩)) hat.1
    cases hout : q'.out with
    | some out =>
      refine ⟨.returned, ⟨0, ""⟩, fun q hq => ?_, ?_⟩
      · rw [hat.2] at hq
        cases hq
        refine ⟨?_, fun hask => ?_⟩
        · cases q' <;> trivial
        · cases q' <;> cases hask
      · rw [hstep, applierStep, hat.2]
        dsimp only
        rw [hout]
        exact ⟨_, rfl⟩
    | none =>
      obtain ⟨e, amb, t, hallow, hfresh, hengine⟩ := h.steps hout
      refine ⟨e, amb, fun q hq => ?_, ?_⟩
      · rw [hat.2] at hq
        cases hq
        exact ⟨hallow, hfresh⟩
      · rw [hstep, applierStep, hat.2]
        dsimp only
        rw [hout]
        rw [hengine]
        exact ⟨_, rfl⟩
  | approving cur | applying cur | undoing cur | closing cur =>
    refine ⟨.returned, ⟨0, ""⟩, hfree _ _ hat.2, ?_⟩
    unfold reviewStep
    rw [hat.1]
    exact ⟨_, rfl⟩

lemma Drive.returned (h : Drive D s c q) (hstuck : Stuck (DriveStep D) s) :
    (c = none ∨ ∃ req, c = some (req, .returned)) ∧ ∀ t ∈ s.tasks, t.ended := by
  obtain ⟨w, tasks⟩ := s
  obtain ⟨hturn, hengine, hverdicts, -, -⟩ := h
  have hnext : ∀ {t rest e amb u}, tasks = t :: rest →
      (∀ q, t.place = some q → q.Allows kindly e ∧ w.Fresh q e amb) →
      taskStep D w e amb t = some u → False := by
    rintro t rest e amb u rfl hallow hstep
    have hnext : systemStep D ⟨w, t :: rest⟩ (.step 0 e amb) = some ⟨u.1, u.2 :: rest⟩ := by
      show (taskStep D w e amb t).map _ = _
      rw [hstep]
      rfl
    refine hstuck _ ⟨.step 0 e amb, ⟨rfl, fun t' ht' q hq => ?_⟩, hnext⟩
    cases ht'
    exact hallow q hq
  cases hturn with
  | @execute x =>
    refine ⟨.inl rfl, fun t ht => ?_⟩
    rw [mem_singleton.1 ht]
    cases hout : (Resuming.executing D.setup x).out with
    | none =>
      obtain ⟨e, amb, u, hallow, hfresh, hstep⟩ := hengine.steps hout
      refine (hnext (t := .execute (.executing D.setup x)) rfl (fun q hq => ?_)
        (Option.map_eq_some_iff.2 ⟨u, hstep, rfl⟩)).elim
      cases hq
      exact ⟨hallow, hfresh⟩
    | some out =>
      show x.phase.ended
      rw [phase_of_out hout]
      rfl
  | @review r rest p q hat hplace hback hrest =>
    have hover : p = .returned := by
      by_contra hne
      obtain ⟨e, amb, hallow, u, hstep⟩ := hengine.reviews hat hne hplace
        (fun cur => hverdicts.source rfl)
      exact hnext rfl hallow (Option.map_eq_some_iff.2 ⟨u, hstep, rfl⟩)
    subst hover
    refine ⟨.inr ⟨_, rfl⟩, fun t ht => ?_⟩
    rcases mem_cons.1 ht with rfl | ht
    · obtain ⟨⟨a, ha⟩, -⟩ := hat
      simp only [Task.ended, ha]
    · exact hrest t ht

lemma Drive.oneApproval (h : Drive D s c q) (hall : AllApplied D s)
    (happ : ∃ n ∈ D.setup.dsl.nodes, n.type = .humanApproval) : D.OneApproval := by
  obtain ⟨-, hasked, happlied⟩ := hall
  obtain ⟨n0, hn0, ht0⟩ := happ
  obtain ⟨id0, hid0⟩ := hasked n0 hn0 ht0
  obtain ⟨hrun, hcallback⟩ := h.engine.begun (ne_nil_of_mem hid0)
  have hpre := h.engine.admitted hrun
  have hnodup := validateNoCycle_nodup _ (preflight_eq_creating_iff.1 hpre).2.2.1
  have hproposal : ∀ n ∈ D.setup.dsl.nodes, n.type = .humanApproval →
      ∃ id, (n.id, id) ∈ s.world.asked ∧ Stored D s.world.shared.queue (n.id, id) ∧
        D.Passed n.id ∧ ∀ m ∈ D.setup.dsl.nodes, m.id ≠ "" := by
    intro n hn ht
    obtain ⟨id, hid⟩ := hasked n hn ht
    obtain ⟨hpassed, hids, -⟩ := h.verdicts.won _ hid (happlied _ hid)
    exact ⟨id, hid, h.verdicts.stored _ hid (happlied _ hid).1, hpassed, hids⟩
  obtain ⟨_, -, hstored, hpassed, hids⟩ := hproposal n0 hn0 ht0
  refine ⟨hpre, ⟨hcallback, hstored.enabled, hpassed.env, hids, fun n hn ht => ?_⟩, hpassed.applier,
    fun n hn m hm htn htm => ?_⟩
  · obtain ⟨_, -, hst, hp, -⟩ := hproposal n hn ht
    exact ⟨hp.named, hp.run, hp.node, hp.hash, hst.trace.2.1, hst.trace.2.2⟩
  · obtain ⟨id, hid, -⟩ := hproposal n hn htn
    obtain ⟨id', hid', -⟩ := hproposal m hm htm
    have heq := h.verdicts.one _ hid _ hid' (happlied _ hid) (happlied _ hid')
    exact inj_on_of_nodup_map hnodup hn hm (Prod.mk.inj heq).1

end

/-! ## the way of such a run -/

lemma preflight_reentered {S : Setup} {dsl : WorkflowDsl} {context : Json} {done : List String}
    (hnodes : dsl.nodes = S.dsl.nodes) (h : preflight S = .creating) :
    preflight (reentered S dsl context done) = .creating := by
  obtain ⟨hactive, hon, hcycle, hbox⟩ := preflight_eq_creating_iff.1 h
  refine preflight_eq_creating_iff.2 ⟨hactive, hon, validateNoCycle_trim ?_, ?_⟩
  · obtain ⟨hids, hdeps, -⟩ := graph_congr hnodes
    have hsucc : succ dsl = succ S.dsl := by
      funext d
      rw [succ, succ, hnodes]
    have hdegree : inDegree dsl = inDegree S.dsl := by
      funext id
      rw [inDegree, inDegree, hdeps]
    rw [← hcycle, validateNoCycle, validateNoCycle, roots, roots, hids, hsucc, hdegree, hnodes]
  · simp only [validateNoSandboxBypass, map_eq_nil_iff, filter_eq_nil_iff] at hbox ⊢
    intro n hn
    obtain ⟨m, hm, rfl⟩ := mem_map.1 hn
    refine hbox m ?_
    rw [← hnodes]
    exact (mem_filter.1 hm).1

section
variable {τ : Type} (D : Desk τ) (w : World τ)

def World.Holds (state : ApprovalState) : Prop :=
  ∀ a ∈ w.asked, ∃ p, w.shared.queue.get a.2 = some p ∧ p.state = state

/-- a `resume` that will bring the run to its end -/
def Resumes : Resuming → Prop
  | .getting => w.store.Waiting
  | .listing _ _ | .marking _ _ _ _ => True
  | .executing S _ => preflight S = .creating ∧ ∀ a ∈ w.asked, a.1 ∉ ids S.dsl
  | _ => False

/-- the one proposal is proposed, approved while the run is paused, and applied when that has
succeeded -/
def Straight (requests : List Request) : Option (Request × Point) → Prop
  | none => requests = [] ∧ w.Holds .proposed
  | some (.approve nowMs id reviewer, p) => requests = [.approve nowMs id reviewer] ∧
      w.store.Waiting ∧ match p with
        | .reading | .approving _ => w.Holds .proposed
        | .returned => w.Holds .approved
        | _ => False
  | some (.apply id, p) => (∃ nowMs reviewer, requests = [.apply id, .approve nowMs id reviewer]) ∧
      match p with
        | .reading | .entering _ => w.Holds .approved ∧ w.store.Waiting
        | .resuming _ q => w.Holds .approved ∧ Resumes w q
        | .applying _ => w.Holds .approved ∧ w.store.Succeeded
        | .returned => w.Holds .applied ∧ w.store.Succeeded
        | _ => False

end

section
variable {τ : Type} {D : Desk τ} {s s' : System τ} {w w' : World τ} {c c' : Option (Request × Point)}
  {q q' : Resuming} {request : Request} {p p' : Point} {cur : ApprovalProposal} {amb : Ambient}
  {e : CallEvent} {id : String} {requests : List Request}

section
variable (hone : D.OneApproval)
include hone

lemma Engine.asked_eq (h : Engine D w q) {a b : String × String}
    (ha : a ∈ w.asked) (hb : b ∈ w.asked) : a = b := by
  obtain ⟨n, hn, hnid, hnt⟩ := h.nodes a ha
  obtain ⟨m, hm, hmid, hmt⟩ := h.nodes b hb
  have hnm := hone.single n hn m hm hnt hmt
  refine inj_on_of_nodup_map h.once ha hb ?_
  rw [← hnid, ← hmid, hnm]

lemma Engine.first_paused {x : Exec} (happ : ∃ n ∈ D.setup.dsl.nodes, n.type = .humanApproval)
    (h : Engine D w (.executing D.setup x)) (hout : (Resuming.executing D.setup x).out.isSome) :
    w.store.Waiting ∧ w.asked ≠ [] := by
  obtain ⟨out, hout⟩ := Option.isSome_iff_exists.1 hout
  have hkept : Kept D.setup D.setup x w.store (w.asked.map Prod.fst) := h.place
  have hphase := phase_of_out hout
  obtain ⟨⟨r, hr, hstatus⟩, -, hpaused⟩ := hkept.outcome hone.admitted out hphase
  have hno : out.ok = false := by
    by_contra hok
    obtain ⟨n, hn, ht⟩ := happ
    obtain ⟨_, _, _, -, htally⟩ := hkept.books
    have hall := ((hkept.stage.returned out hphase).1 (by simpa using hok)).2
    exact htally.undone n hn ht (hall n.id (mem_map_of_mem hn))
  obtain ⟨hwaiting, id, hid, -⟩ := hpaused hone.sound.callback hno
  refine ⟨⟨r, hr, hstatus.trans hwaiting⟩, ?_⟩
  rintro hnil
  rw [hnil] at hid
  cases hid

lemma Resumes.step (h : Resumes w q) (hengine : Engine D w q)
    (hengine' : Engine D w' q') (hallow : q.Allows kindly e) (hasked : w.asked ≠ [])
    (hm : EngineMoves D w q e amb w' q') :
    Resumes w' q' ∧ w'.shared = w.shared ∧ w'.asked = w.asked := by
  cases hm with
  | @asks S x x' l r job amb hr hpc hcb hstep hx =>
    exfalso
    obtain ⟨a, ha⟩ := exists_mem_of_ne_nil _ hasked
    have heq := hengine'.asked_eq hone (mem_cons_of_mem _ ha) mem_cons_self
    have hnodup : (job.node.id :: w.asked.map Prod.fst).Nodup := hengine'.once
    refine (nodup_cons.1 hnodup).1 (mem_map.2 ⟨a, ha, ?_⟩)
    rw [heq]
  | plain hask hstep =>
    refine ⟨?_, rfl, rfl⟩
    obtain ⟨begun, hsession⟩ := hengine.session
    cases advances_of_step hstep with
    | checked =>
      obtain ⟨dsl, context, hc⟩ := checked_waiting hone.sound.ids hengine.stores h
      rw [hc]
      trivial
    | failed => exact h
    | listed | marked => trivial
    | @reenters dsl context done =>
      have hplace : ∀ id ∈ w.asked.map Prod.fst, id ∈ w.store.counted ∧ id ∈ done := hengine.place
      refine ⟨preflight_reentered hsession.place.1 hone.admitted, fun a ha hmem => ?_⟩
      exact notMem_of_mem_trim hmem (hplace a.1 (mem_map_of_mem ha)).2
    | thrown => cases q <;> exact absurd hallow id
    | exec hx => exact h

lemma Resumes.ok {out : WorkflowExecutionResult} (h : Resumes w q)
    (hengine : Engine D w q) (hout : q.out = some out) : out.ok := by
  cases q with
  | executing S x =>
    have hkept : Kept D.setup S x w.store (w.asked.map Prod.fst) := hengine.place
    obtain ⟨hpre, hgone⟩ := h
    obtain ⟨-, -, hpaused⟩ := hkept.outcome hpre out (phase_of_out hout)
    by_contra hno
    have hcallback : S.hasCallback := by
      rw [hkept.wired]
      exact hone.sound.callback
    obtain ⟨-, id, hid, hmem⟩ := hpaused hcallback (by simpa using hno)
    obtain ⟨a, ha, rfl⟩ := mem_map.1 hid
    exact hgone a ha hmem
  | refused out' => exact absurd h id
  | _ => cases hout

end

lemma EngineMoves.named (hD : D.Sound) (h : EngineMoves D w q e amb w' q')
    (hengine' : Engine D w' q') (hfresh : w.Fresh q e amb) (hnamed : ∀ a ∈ w.asked, a.2 ≠ "") :
    ∀ a ∈ w'.asked, a.2 ≠ "" := by
  cases h with
  | plain => exact hnamed
  | @asks S x x' l r job amb hr hpc hcb hstep hx =>
    intro a ha
    rcases mem_cons.1 ha with rfl | ha
    · have hfresh : Unused w.shared.queue amb.ulid := by
        refine hfresh ?_
        rw [asking_askApproval hr hpc hcb]
        rfl
      obtain ⟨n, hn, hid, ht⟩ := hengine'.nodes _ mem_cons_self
      have hdelivered := hD.delivered n hn ht
      rw [hid] at hdelivered
      have htrace : (validateDecisionTrace (D.trace amb job.node)).ok := by
        refine validate_approvalTrace.2 ⟨?_, hdelivered.algorithm, hdelivered.digest⟩
        rw [hdelivered.run]
        exact hdelivered.named
      obtain ⟨hret, -⟩ :=
        enqueue_accepted D amb w.shared.queue job.node S.context hD.enabled htrace hfresh
      rw [hret]
      exact hfresh.1
    · exact hnamed a ha

lemma Verdicts.reads {state : ApprovalState} (h : Verdicts D w (some (request, p)))
    (hholds : w.Holds state) : ∃ a cur, w.shared.queue.get request.id = some cur ∧
      cur.state = state ∧ D.Carries a cur := by
  obtain ⟨a, ha, hid, -⟩ := h.asked _ _ rfl
  obtain ⟨cur, hget, hstate⟩ := hholds a ha
  rw [hid] at hget
  obtain ⟨b, -, -, hcarries⟩ := h.carries hget
  exact ⟨b.1, cur, hget, hstate, hcarries⟩

lemma World.Holds.execute (h : w.Holds .proposed) (hverdicts : Verdicts D w c)
    (hnamed : ∀ a ∈ w'.asked, a.2 ≠ "") (hm : EngineMoves D w q e amb w' q')
    (hfresh : w.Fresh q e amb) : w'.Holds .proposed := by
  obtain ⟨-, hget, hasked⟩ := hm.frame hfresh hverdicts.stored
  intro a ha
  have hold : a ∈ w.asked → ∃ p, w'.shared.queue.get a.2 = some p ∧ p.state = .proposed := by
    intro hmem
    rw [hget a hmem (hnamed a ha)]
    exact h a hmem
  rcases hasked with heq | ⟨a0, heq, -, hnew⟩
  · exact hold (heq ▸ ha)
  · rw [heq] at ha
    rcases mem_cons.1 ha with rfl | hmem
    · exact (hnew (hnamed a (heq ▸ ha))).2
    · exact hold hmem

section
variable (hone : D.OneApproval)
include hone

lemma Verdicts.holds_updated {p1 : ApprovalProposal} (h : Verdicts D w (some (request, p)))
    (hengine : Engine D w q)
    (hget : w.shared.queue.get request.id = some cur) (hp1 : p1 = { cur with
      state := p1.state, reviewerUserId := p1.reviewerUserId, reviewedAtMs := p1.reviewedAtMs }) :
    (w.updated D p1).Holds p1.state := by
  intro a ha
  obtain ⟨a0, ha0, hid, hne⟩ := h.asked _ _ rfl
  obtain rfl : a = a0 := hengine.asked_eq hone ha ha0
  have hstored := h.stored a ha hne
  obtain ⟨p', hp', hpid, hcarries⟩ := hstored.held
  rw [hid, hget] at hp'
  cases hp'
  have hkeeps : p1.id = a.2 ∧ D.Carries a.1 p1 := by
    rw [hp1]
    exact ⟨hpid, hcarries.congr rfl rfl rfl⟩
  exact ⟨p1, (hstored.update hne hkeeps.1 hkeeps.2).1, rfl⟩

lemma Straight.approve {nowMs : Int} {reviewer : String}
    (h : Straight w requests (some (.approve nowMs id reviewer, p)))
    (hverdicts : Verdicts D w (some (.approve nowMs id reviewer, p))) (hengine : Engine D w q)
    (hstep : PointStep D w (.approve nowMs id reviewer) p e amb w' p') :
    Straight w' requests (some (.approve nowMs id reviewer, p')) := by
  obtain ⟨hreq, hwaiting, hp⟩ := h
  cases hstep with
  | skips hno =>
    obtain ⟨_, cur, hget, hstate, -⟩ := hverdicts.reads hp
    exact absurd hstate (hno cur hget)
  | reads hget hfits heq =>
    rw [heq]
    exact ⟨hreq, hwaiting, hp⟩
  | approves =>
    exact ⟨hreq, hwaiting, hverdicts.holds_updated hone hengine (hverdicts.point _ _ rfl).1 rfl⟩
  | _ => exact False.elim hp

lemma Straight.apply (hsha : ∀ s, D.deps.digest.sha256 s ≠ "")
    (h : Straight w requests (some (.apply id, p)))
    (hverdicts : Verdicts D w (some (.apply id, p))) (hengine : Engine D w q)
    (hq : ∀ cur q', p = .resuming cur q' → q' = q) (hp' : ∀ cur q', p' ≠ .resuming cur q')
    (hstep : PointStep D w (.apply id) p e amb w' p') :
    Straight w' requests (some (.apply id, p')) := by
  obtain ⟨hreq, hp⟩ := h
  have hpasses : ∀ {cur}, w.shared.queue.get id = some cur → D.Passes cur := by
    intro cur hget
    obtain ⟨a, ha, -, hcarries⟩ := hverdicts.carries hget
    obtain ⟨n, hn, hid, ht⟩ := hengine.nodes a ha
    rw [← hid] at hcarries
    obtain ⟨node, context, hnode, hpayload⟩ := hcarries.payload
    have hdelivered := hone.sound.delivered n hn ht
    rw [← hnode] at hdelivered
    have hproposal : D.Passes (D.proposal ⟨0, ""⟩ node context) := passes_proposal hdelivered
    exact hproposal.congr hpayload
  cases hstep with
  | skips hno =>
    obtain ⟨_, cur, hget, hstate, hcarries⟩ := hverdicts.reads hp.1
    refine absurd ⟨hstate, ?_, ?_⟩ (hno cur hget)
    · have hne : cur.payloadSha256 ≠ "" := by
        rw [hcarries.seals]
        exact hsha _
      rw [verifyPayloadSha256, if_neg hne, hcarries.seals]
      exact decide_eq_true rfl
    · rw [hcarries.source]
      exact hone.applier
  | reads hget hfits heq =>
    rw [heq]
    exact ⟨hreq, hp⟩
  | @refused _ _ cur _ a hcheck hover =>
    obtain ⟨r, hr, -⟩ := hp.2
    rw [(hpasses (hverdicts.point _ _ rfl).1).check hone.sound.env (by rw [hr]; rfl)
      (fun r hr => (hengine.stores r hr).2)] at hcheck
    cases hcheck
  | entered | engine => exact absurd rfl (hp' _ _)
  | @granted _ _ cur q1 out v hout hv hok =>
    obtain rfl := hq cur q1 rfl
    exact ⟨hreq, hp.1, hengine.succeeded hout hok⟩
  | @turned _ _ cur q1 _ out hout hno hover =>
    obtain rfl := hq cur q1 rfl
    obtain ⟨v, hv, -⟩ := hpasses (hverdicts.point _ _ rfl).1
    have hok := hp.2.ok hone hengine hout
    rw [hno ⟨v, hv⟩] at hok
    cases hok
  | applies => exact ⟨hreq, hverdicts.holds_updated hone hengine (hverdicts.point _ _ rfl).1 rfl, hp.2⟩
  | approves | undoes | closes => exact False.elim hp

variable (happ : ∃ n ∈ D.setup.dsl.nodes, n.type = .humanApproval)
include happ

lemma Straight.begins (h : Drive D s c q)
    (hstraight : Straight s.world s.requests c) (hdrives : Drives s (.begin request))
    (hc : c = none ∨ ∃ req, c = some (req, .returned)) (hout : q.out.isSome) :
    Straight s.world (request :: s.requests) (some (request, D.point)) := by
  have hpoint : D.point = .reading := if_pos hone.sound.enabled
  obtain ⟨⟨-, hmem⟩, hnew⟩ := h.begins hdrives
  -- the calls so far are for the same proposal
  have hsame : ∀ r ∈ s.requests, r.id = request.id := by
    intro r hr
    obtain ⟨a, ha, haid⟩ := mem_map.1 (h.filed r hr).2
    obtain ⟨b, hb, hbid⟩ := mem_map.1 hmem
    rw [← haid, ← hbid, h.engine.asked_eq hone ha hb]
  rw [hpoint]
  rcases hc with rfl | ⟨req, rfl⟩
  · obtain ⟨hreq, hholds⟩ := hstraight
    cases request with
    | approve nowMs id reviewer =>
      have hturn := h.turn
      have hengine := h.engine
      generalize s.tasks = tasks at hturn
      cases hturn with
      | execute =>
        rw [hreq]
        exact ⟨rfl, (hengine.first_paused hone happ hout).1, hholds⟩
    | apply id =>
      have hcalled := (drives_begin_iff.1 hdrives).2.2
      rw [hreq] at hcalled
      cases hcalled
  · cases req with
    | approve nowMs id reviewer =>
      obtain ⟨hreq, hwaiting, hholds⟩ := hstraight
      rw [hreq] at hsame hnew
      obtain hid : id = request.id := hsame _ mem_cons_self
      cases request with
      | approve nowMs' id' reviewer' =>
        obtain rfl : id = id' := hid
        exact absurd mem_cons_self hnew
      | apply id' =>
        obtain rfl : id = id' := hid
        rw [hreq]
        exact ⟨⟨nowMs, reviewer, rfl⟩, hholds, hwaiting⟩
    | apply id =>
      obtain ⟨⟨nowMs, reviewer, hreq⟩, -⟩ := hstraight
      rw [hreq] at hsame hnew
      obtain hid : id = request.id := hsame _ mem_cons_self
      refine absurd ?_ hnew
      cases request <;> simp [Request.key, hid, Request.id]

lemma Straight.step (hsha : ∀ s, D.deps.digest.sha256 s ≠ "") (htools : ToolsSucceed D.setup)
    (h : Drive D s c q) (hnamed : ∀ a ∈ s.world.asked, a.2 ≠ "")
    (hstraight : Straight s.world s.requests c) (hst : DriveStep D s s') :
    ∃ c' q', Drive D s' c' q' ∧ (∀ a ∈ s'.world.asked, a.2 ≠ "") ∧
      Straight s'.world s'.requests c' := by
  rcases h.step htools hst with ⟨request, hdrives, rfl, hc, hout, h'⟩ | ⟨c', q', hreq, h', hstep⟩
  · exact ⟨_, _, h', hnamed, Straight.begins hone happ h hstraight hdrives hc hout⟩
  · refine ⟨c', q', h', ?_⟩
    rw [requests_congr hreq]
    have hengine' := h'.engine
    generalize s'.world = w' at hstep hengine'
    cases hstep with
    | execute hallow hfresh hm =>
      have hnamed' := hm.named hone.sound hengine' hfresh hnamed
      exact ⟨hnamed', hstraight.1, hstraight.2.execute h.verdicts hnamed' hm hfresh⟩
    | @engine request cur q q' e amb w' hallow hfresh hout hm =>
      cases request with
      | approve nowMs id reviewer => exact False.elim hstraight.2.2
      | apply id =>
        obtain ⟨hreqs, hholds, hresumes⟩ := hstraight
        obtain ⟨a, ha, -⟩ := h.verdicts.asked _ _ rfl
        obtain ⟨hresumes', hshared, hasked⟩ := hresumes.step hone h.engine hengine' hallow
          (ne_nil_of_mem ha) hm
        refine ⟨?_, hreqs, ?_, hresumes'⟩
        · rw [hasked]
          exact hnamed
        · unfold World.Holds
          rw [hasked, hshared]
          exact hholds
    | @entered request cur q hout hcheck =>
      cases request with
      | approve nowMs id reviewer => exact False.elim hstraight.2.2
      | apply id => exact ⟨hnamed, hstraight.1, hstraight.2⟩
    | @other request p p' q e amb w' hout hp hp' hpoint =>
      refine ⟨?_, ?_⟩
      · rw [(hpoint.frame hp').2]
        exact hnamed
      · cases request with
        | approve nowMs id reviewer => exact hstraight.approve hone h.verdicts h.engine hpoint
        | apply id => exact hstraight.apply hone hsha h.verdicts h.engine hp hp' hpoint

lemma Straight.allApplied (h : Drive D s c q) (hnamed : ∀ a ∈ s.world.asked, a.2 ≠ "")
    (hstraight : Straight s.world s.requests c) (hstuck : Stuck (DriveStep D) s) : AllApplied D s := by
  obtain ⟨hc, hended⟩ := h.returned hstuck
  have hbegins : ∀ request, ¬ Drives s (.begin request) :=
    fun request hdrives => hstuck _ ⟨.begin request, hdrives, rfl⟩
  rcases hc with rfl | ⟨req, rfl⟩
  · exfalso
    obtain ⟨-, hout⟩ := h.turn.over_of_ended h.engine hended
    have hasked : s.world.asked ≠ [] := by
      have hturn := h.turn
      have hengine := h.engine
      generalize s.tasks = tasks at hturn
      cases hturn with
      | execute => exact (hengine.first_paused hone happ hout).2
    obtain ⟨a, ha⟩ := exists_mem_of_ne_nil _ hasked
    refine hbegins (.approve 0 a.2 "") (drives_begin_iff.2 ⟨hended, ?_, hnamed a ha,
      mem_map_of_mem ha⟩)
    rw [hstraight.1]
    exact not_mem_nil
  · cases req with
    | approve nowMs id reviewer =>
      obtain ⟨hreq, -⟩ := hstraight
      refine (hbegins (.apply id) (drives_begin_iff.2 ⟨hended, ?_, ?_⟩)).elim <;> rw [hreq]
      · simp [Request.key]
      · exact mem_cons_self
    | apply id =>
      obtain ⟨-, hholds, hsucceeded⟩ := hstraight
      obtain ⟨a, ha, -⟩ := h.verdicts.asked _ _ rfl
      refine ⟨hsucceeded, fun n hn ht => ⟨a.2, ?_⟩, fun a ha => ⟨hnamed a ha, hholds a ha⟩⟩
      obtain ⟨m, hm, hid, hmt⟩ := h.engine.nodes a ha
      rw [hone.single n hn m hm ht hmt, hid]
      exact ha

end

/-- the reviewer comes to an end, and then all proposals are applied and the run has succeeded
exactly when there is one approval node, whose proposal can be applied -/
theorem sequential_approvals_iff (D : Desk τ) (shared : Shared τ) (htools : ToolsSucceed D.setup)
    (hsha : ∀ s, D.deps.digest.sha256 s ≠ "")
    (happ : ∃ n ∈ D.setup.dsl.nodes, n.type = .humanApproval) :
    Halts (DriveStep D) (opening D shared) ∧
      ((∀ t, Reach (DriveStep D) (opening D shared) t → Stuck (DriveStep D) t →
          AllApplied D t) ↔ D.OneApproval) := by
  have hhalts := drive_halts htools shared
  refine ⟨hhalts, fun hall => ?_, fun hone t hreach hstuck => ?_⟩
  · obtain ⟨t, hreach, hstuck⟩ := hhalts.exists_stuck
    obtain ⟨c, q, ht⟩ := drive_of_reach htools hreach
    exact ht.oneApproval (hall t hreach hstuck) happ
  · obtain ⟨c, q, ht, hnamed, hstraight⟩ := Reach.inv
      (I := fun s => ∃ c q, Drive D s c q ∧ (∀ a ∈ s.world.asked, a.2 ≠ "") ∧
        Straight s.world s.requests c)
      (fun s s' ⟨c, q, hs, hnamed, hstraight⟩ hst =>
        Straight.step hone happ hsha htools hs hnamed hstraight hst)
      hreach ⟨none, _, drive_opening htools shared, nofun, rfl,
        nofun⟩
    exact Straight.allApplied hone happ ht hnamed hstraight hstuck

end

/-! ## two approvals in a row -/

section
variable {τ : Type} {D : Desk τ}

def Resuming.toolless : Resuming → CallEvent → Bool
  | _, .returned => true
  | .executing S x, .exec e =>
    match callOf S x e with
    | none => true
    | some (.execute _ _) => false
    | some (.approval _) => e.answer = .pause true
    | some _ => e.answer = .returned
  | _, _ => false

def drivable (s : System τ) : SystemEvent → Bool
  | .begin (.approve _ id _) => s.tasks.all Task.ended && id ≠ "" &&
      id ∈ s.world.asked.map Prod.snd && (false, id) ∉ s.requests.map Request.key
  | .begin (.apply id) => s.tasks.all Task.ended && (false, id) ∈ s.requests.map Request.key &&
      (true, id) ∉ s.requests.map Request.key
  | .step i e amb => i = 0 && (s.tasks[0]?.bind Task.place).all (fun q => q.toolless e &&
      ((q.asking e).isNone || (amb.ulid ≠ "" && (s.world.shared.queue.get amb.ulid).isNone &&
        (s.world.shared.queue.store.bind (AList.lookup amb.ulid)).isNone)))

lemma allows_of_toolless {q : Resuming} {e : CallEvent} (h : q.toolless e) : q.Allows kindly e := by
  cases e with
  | returned => cases q <;> trivial
  | thrown => cases q <;> cases h
  | exec e =>
    cases q with
    | executing S x =>
      intro c hc
      simp only [Resuming.toolless, hc] at h
      cases c with
      | execute toolId args => cases h
      | _ =>
        have hanswer := of_decide_eq_true h
        exact hanswer
    | _ => cases h

lemma drives_of_drivable {s : System τ} {ev : SystemEvent} (h : drivable s ev) : Drives s ev := by
  cases ev with
  | begin request =>
    refine drives_begin_iff.2 ?_
    cases request with
    | approve nowMs id reviewer =>
      simp only [drivable, Bool.and_eq_true, decide_eq_true_eq, all_eq_true] at h
      obtain ⟨⟨⟨hended, hid⟩, hasked⟩, hnew⟩ := h
      exact ⟨hended, hnew, hid, hasked⟩
    | apply id =>
      simp only [drivable, Bool.and_eq_true, decide_eq_true_eq, all_eq_true] at h
      obtain ⟨⟨hended, happroved⟩, hnew⟩ := h
      exact ⟨hended, hnew, happroved⟩
  | step i e amb =>
    simp only [drivable, Bool.and_eq_true, decide_eq_true_eq] at h
    obtain ⟨rfl, hall⟩ := h
    refine ⟨rfl, fun t ht q hq => ?_⟩
    simp only [ht, Option.bind_some, hq, Option.all_some, Bool.and_eq_true, Bool.or_eq_true,
      decide_eq_true_eq, Option.isNone_iff_eq_none] at hall
    obtain ⟨hallow, hfresh⟩ := hall
    refine ⟨allows_of_toolless hallow, fun hask => ?_⟩
    rcases hfresh with hnone | ⟨⟨hid, hget⟩, hrow⟩
    · rw [hnone] at hask
      cases hask
    · exact ⟨hid, hget, hrow⟩

lemma reach_driven (evs : List SystemEvent) {s t : System τ}
    (h : playSystem D drivable s evs = some t) : Reach (DriveStep D) s t := by
  refine reach_of_play (fun _ => rfl) ?_ evs h
  intro s ev evs t h
  obtain ⟨u, ⟨hdrivable, hu⟩, hrest⟩ := playSystem_cons h
  exact ⟨u, ⟨ev, drives_of_drivable hdrivable, hu⟩, hrest⟩

/-- nothing is left to do when the newest call is over and every proposal was applied for -/
lemma stuck_of_over {s : System τ} {r : Review} {rest : List Task}
    {a : Except Json.TypeError Bool} (htasks : s.tasks = .review r :: rest) (hrest : r.rest = .ret a)
    (hall : ∀ id ∈ s.world.asked.map Prod.snd, (false, id) ∈ s.requests.map Request.key)
    (happly : ∀ k ∈ s.requests.map Request.key, (true, k.2) ∈ s.requests.map Request.key) :
    Stuck (DriveStep D) s := by
  rintro t ⟨ev, hdrives, hstep⟩
  cases ev with
  | begin request =>
    obtain ⟨-, hnew, hcalled⟩ := drives_begin_iff.1 hdrives
    cases request with
    | approve nowMs id reviewer => exact hnew (hall id hcalled.2)
    | apply id => exact hnew (happly _ hcalled)
  | step i e amb =>
    obtain ⟨rfl, -⟩ := hdrives
    obtain ⟨t', ht', hstep⟩ := Option.bind_eq_some_iff.1 hstep
    rw [htasks] at ht'
    cases ht'
    obtain ⟨u, hu, -⟩ := Option.map_eq_some_iff.1 hstep
    have hnone : reviewStep D s.world r e amb = none := by
      unfold reviewStep
      rw [hrest]
    rw [taskStep, hnone] at hu
    cases hu

end

def chained : Setup := reviewed
  [{ id := "a", type := .humanApproval, toolId := "reviewer" },
    { id := "b", type := .humanApproval, toolId := "reviewer", dependsOn := ["a"] }]

def secondId : Ambient := ⟨2, "p2"⟩

def goesOn (n : Nat) : List SystemEvent := List.replicate n (.step 0 .returned firstId)

/-- the `execute` inside a `resume`, with these steps of its bodies -/
def goesRound (order : List String) (bodies : List Event) : List SystemEvent :=
  [Event.main .quiet, .main .returned, .main .returned, .dispatch order].map goes ++
    bodies.map goes ++ [Event.main .quiet, .main .quiet, .main .quiet, .main .returned].map goes
where
  goes (e : Event) : SystemEvent := .step 0 (.exec e) secondId

/-- the second proposal is asked for in the `resume` under the first `apply` -/
def chainedEvents : List SystemEvent :=
  askedEvents ++ storedEvents 0 firstId
    ++ .begin (.approve 2 "p1" "alice") :: goesOn 2
    ++ .begin (.apply "p1") :: goesOn 6
    ++ goesRound ["b"] [.take, .node 0 .quiet, .node 0 .returned, .node 0 (.pause true), .node 0 .quiet]
    ++ goesOn 3
    ++ .begin (.approve 3 "p2" "alice") :: goesOn 2
    ++ .begin (.apply "p2") :: goesOn 6
    ++ goesRound [] [] ++ goesOn 2

/-- the run succeeds, and of its two proposals the first is rolled back -/
theorem first_approval_rolled_back :
    ToolsSucceed chained ∧
      ∃ t, Reach (DriveStep (reviewDesk chained)) (opening (reviewDesk chained) noProposals) t ∧
        Stuck (DriveStep (reviewDesk chained)) t ∧ t.world.store.Succeeded ∧
        (∃ p, t.world.shared.queue.get "p1" = some p ∧ p.state = .rolledBack) ∧
        ∃ p, t.world.shared.queue.get "p2" = some p ∧ p.state = .applied := by
  have hplay := reach_driven (D := reviewDesk chained) (s := opening (reviewDesk chained) noProposals)
    chainedEvents rfl
  refine ⟨?_, _, hplay, stuck_of_over rfl rfl (by decide) (by decide), ⟨_, rfl, rfl⟩, ⟨_, rfl, rfl⟩,
    _, rfl, rfl⟩
  intro n hn ht
  rcases mem_cons.1 hn with rfl | hn
  · cases ht
  · rw [mem_singleton.1 hn] at ht
    cases ht

lemma approvalOnly_oneApproval : (reviewDesk approvalOnly).OneApproval where
  admitted := by decide
  sound := reviewDesk_sound
  applier := rfl
  single n hn m hm _ _ := by
    rw [mem_singleton.1 hn, mem_singleton.1 hm]

/-- one approval is applied, and with it the run has succeeded -/
theorem single_approval_applied :
    ∃ t, Reach (DriveStep (reviewDesk approvalOnly))
        (opening (reviewDesk approvalOnly) noProposals) t ∧
      Stuck (DriveStep (reviewDesk approvalOnly)) t ∧ AllApplied (reviewDesk approvalOnly) t := by
  have htools : ToolsSucceed approvalOnly := by
    intro n hn ht
    rw [mem_singleton.1 hn] at ht
    cases ht
  have hsha : ∀ s, (reviewDesk approvalOnly).deps.digest.sha256 s ≠ "" := by
    intro s
    show Workflow.sampleDigest.sha256 "" ≠ ""
    decide
  have hiff := sequential_approvals_iff (reviewDesk approvalOnly) noProposals htools hsha
    ⟨_, mem_singleton.2 rfl, rfl⟩
  obtain ⟨t, hreach, hstuck⟩ := hiff.1.exists_stuck
  exact ⟨t, hreach, hstuck, hiff.2.2 approvalOnly_oneApproval t hreach hstuck⟩

end AegisGate.Workflow
