import AegisGate.Workflow.Asked

/-!
# A reviewer's call step by step

The programs of `approve` and `apply`, as the places they come to when nobody else is at the queue:
what is read is still there when it is written back.

* `Point`  these places;
* `Review.At`  the call is at this place, with this much of its program left;
* `PointStep`  what a step does, from place to place;
* `Works.point`  the steps of a call are these.
-/

namespace AegisGate.Workflow

open Autonomy RunPayload Json

/-! ## places -/

/-- where a call is; `cur` is the proposal as it was read -/
inductive Point where
  | reading
  | approving (cur : ApprovalProposal)
  | entering (cur : ApprovalProposal)
  | resuming (cur : ApprovalProposal) (q : Resuming)
  | applying (cur : ApprovalProposal)
  | undoing (cur : ApprovalProposal)
  | closing (cur : ApprovalProposal)
  | returned

def Request.id : Request → String
  | .approve _ id _ => id
  | .apply id => id

open Request

def Request.moves : Request → ApprovalProposal → ApprovalProposal
  | .approve nowMs _ reviewer, cur =>
    { cur with state := .approved, reviewerUserId := reviewer, reviewedAtMs := nowMs }
  | .apply _, cur => { cur with state := .applied }

section
variable {τ : Type} (D : Desk τ)

/-- the state the call asks for, and the checks of `apply` -/
def Request.Fits : Request → ApprovalProposal → Prop
  | .approve _ _ _, cur => cur.state = .proposed
  | .apply _, cur => cur.state = .approved ∧ verifyPayloadSha256 D.deps.digest cur ∧
      (D.deps.appliers cur.source).isSome

variable (cur : ApprovalProposal)

def closeProg : Prog (Except TypeError Bool) := do
  let _accepted ← ask (.update { cur with state := .rolledBack })
  pure (audited D.deps { cur with state := .rolledBack } false)

def undoProg : Prog (Except TypeError Bool) := do
  let back ← ask (.rollback cur)
  match back with
  | .error e => pure (.error e)
  | .ok _ => closeProg D cur

def afterApplier : Except TypeError ApplyResult → Prog (Except TypeError Bool)
  | .error e => .ret (.error e)
  | .ok r =>
    if r.success then moveProg D.deps { cur with state := .applied } else undoProg D cur

lemma runApplierProg_eq : runApplierProg D.deps cur = .call (.apply cur) (afterApplier D cur) := by
  show Proc.call (QueueCall.apply cur) _ = _
  congr 1
  funext a
  cases a <;> rfl

def Review.At (r : Review) : Point → Prop
  | .reading => r.rest = r.request.prog D ∧ r.place = none ∧ D.enabled
  | .approving cur => r.rest = moveProg D.deps (r.request.moves cur) ∧ r.place = none
  | .entering cur => r.rest = runApplierProg D.deps cur ∧ r.place = none
  | .resuming cur q => r.rest = runApplierProg D.deps cur ∧ r.place = some q
  | .applying cur =>
    r.rest = moveProg D.deps { cur with state := .applied } ∧ r.place = none
  | .undoing cur => r.rest = undoProg D cur ∧ r.place = none
  | .closing cur => r.rest = closeProg D cur ∧ r.place = none
  | .returned => (∃ a, r.rest = .ret a) ∧ r.place = none

variable (w : World τ)

def World.updated (p : ApprovalProposal) : World τ :=
  { w with shared := { w.shared with queue := (w.shared.queue.update D.deps.digest p).1 } }

inductive PointStep (request : Request) : Point → CallEvent → Ambient → World τ → Point → Prop
  | skips {e amb}
      (h : ∀ cur, w.shared.queue.get request.id = some cur → ¬ request.Fits D cur) :
      PointStep request .reading e amb w .returned
  | reads {e amb cur p}
      (hget : w.shared.queue.get request.id = some cur) (hfits : request.Fits D cur)
      (hp : p = match request with | .approve _ _ _ => .approving cur | .apply _ => .entering cur) :
      PointStep request .reading e amb w p
  | approves {e amb cur} :
      PointStep request (.approving cur) e amb (w.updated D (request.moves cur)) .returned
  | refused {e amb cur p a} (hcheck : D.applierCheck w.store cur = some a)
      (hp : p = .returned ∨ p = .undoing cur) : PointStep request (.entering cur) e amb (w.calls cur) p
  | entered {e amb cur}
      (hcheck : D.applierCheck w.store cur = none) :
      PointStep request (.entering cur) e amb (w.calls cur) (.resuming cur .getting)
  | engine {e amb cur q q' w'}
      (hout : q.out = none) (h : EngineMoves D w q e amb w' q') :
      PointStep request (.resuming cur q) e amb w' (.resuming cur q')
  | granted {e amb cur q out v} (hout : q.out = some out)
      (hv : extract cur = .ok (.ok v)) (hok : out.ok) :
      PointStep request (.resuming cur q) e amb w (.applying cur)
  | turned {e amb cur q p out} (hout : q.out = some out)
      (hno : (∃ v, extract cur = .ok (.ok v)) → out.ok = false)
      (hp : p = .returned ∨ p = .undoing cur) : PointStep request (.resuming cur q) e amb w p
  | applies {e amb cur} :
      PointStep request (.applying cur) e amb (w.updated D { cur with state := .applied }) .returned
  | undoes {e amb cur p targets}
      (hp : p = .returned ∨ p = .closing cur) :
      PointStep request (.undoing cur) e amb
        { w with shared := { w.shared with targets } } p
  | closes {e amb cur} :
      PointStep request (.closing cur) e amb (w.updated D { cur with state := .rolledBack }) .returned

end

/-! ## the steps of a call -/

section
variable {τ : Type} {D : Desk τ} {w w' : World τ} {r : Review} {t : Task} {e : CallEvent}
  {amb : Ambient} {cur : ApprovalProposal} {a : Except TypeError ApplyResult}
  {id : String}

lemma Works.queue_inv {c : QueueCall} {k : c.Answer → Prog (Except TypeError Bool)}
    (hrest : r.rest = .call c k) (hc : ∀ p, c ≠ .apply p) (h : Works D w e amb (.review r) w' t) :
    w' = { w with shared := (exec D.deps c w.shared).2 } ∧
      t = .review (r.answered c k (exec D.deps c w.shared).1) := by
  cases h with
  | queue hrest' _ =>
    have heq := hrest.symm.trans hrest'
    cases heq
    exact ⟨rfl, rfl⟩
  | refused hrest' | entered hrest' | engine hrest' | returned hrest' =>
    have heq := hrest.symm.trans hrest'
    cases heq
    exact absurd rfl (hc _)

lemma Works.move_inv {p : ApprovalProposal} (hrest : r.rest = moveProg D.deps p)
    (h : Works D w e amb (.review r) w' t) :
    w' = w.updated D p ∧ ∃ r', t = .review r' ∧ r'.request = r.request ∧ r'.At D .returned := by
  obtain ⟨rfl, rfl⟩ := h.queue_inv (c := .update p)
    (k := fun a => .ret (moved D.deps p a)) hrest (fun _ hc => by cases hc)
  exact ⟨rfl, _, rfl, rfl, ⟨_, rfl⟩, rfl⟩

/-- what the call does with the proposal it has read -/
def Request.next (D : Desk τ) (request : Request) :
    Option ApprovalProposal → Prog (Except TypeError Bool)
  | none => .ret (.ok false)
  | some cur =>
    match request with
    | .approve _ _ _ =>
      if cur.state ≠ .proposed then .ret (.ok false)
      else moveProg D.deps (request.moves cur)
    | .apply _ =>
      if cur.state ≠ .approved then .ret (.ok false)
      else if !verifyPayloadSha256 D.deps.digest cur then .ret (audited D.deps cur false)
      else if (D.deps.appliers cur.source).isNone then .ret (audited D.deps cur false)
      else runApplierProg D.deps cur

lemma Request.prog_eq (hon : D.enabled) (request : Request) :
    request.prog D = .call (.get request.id) (request.next D) := by
  cases request with
  | approve nowMs id reviewer =>
    show approveProg D.deps D.enabled nowMs id reviewer = _
    rw [hon]
    show Proc.call (QueueCall.get id) _ = _
    congr 1
    funext cur
    cases cur <;> rfl
  | apply id =>
    show applyProg D.deps D.enabled id = _
    rw [hon]
    show Proc.call (QueueCall.get id) _ = _
    congr 1
    funext cur
    cases cur <;> rfl

lemma Review.at_next (hrest : r.rest = r.request.next D (some cur)) (hplace : r.place = none)
    (hget : w.shared.queue.get r.request.id = some cur) (hfits : r.request.Fits D cur) :
    ∃ p, r.At D p ∧ PointStep D w r.request .reading e amb w p := by
  obtain ⟨request, past, rest, place⟩ := r
  cases request with
  | approve nowMs id reviewer =>
    exact ⟨.approving cur, ⟨hrest.trans (if_neg (not_not.2 hfits)), hplace⟩, .reads hget hfits rfl⟩
  | apply id =>
    refine ⟨.entering cur, ⟨hrest.trans ((if_neg (not_not.2 hfits.1)).trans ?_), hplace⟩,
      .reads hget hfits rfl⟩
    rw [hfits.2.1, Bool.not_true, if_neg Bool.false_ne_true,
      if_neg (by rw [Option.isNone_eq_false_iff.2 hfits.2.2]; exact Bool.false_ne_true)]

lemma Request.next_skips {request : Request} (hfits : ¬ request.Fits D cur) :
    ∃ a, request.next D (some cur) = .ret a := by
  cases request with
  | approve nowMs id reviewer => exact ⟨_, if_pos hfits⟩
  | apply id =>
    unfold Request.next
    dsimp only
    split
    · exact ⟨_, rfl⟩
    · next hstate =>
      split
      · exact ⟨_, rfl⟩
      · next hverify =>
        split
        · exact ⟨_, rfl⟩
        · next happlier =>
          have happlier := Option.isSome_iff_ne_none.2 (by simpa using happlier)
          exact absurd ⟨not_not.1 hstate, by simpa using hverify, happlier⟩ hfits

lemma Works.read_inv (hat : r.At D .reading) (h : Works D w e amb (.review r) w' t) :
    ∃ r' p, t = .review r' ∧ r'.request = r.request ∧ r'.At D p ∧
      PointStep D w r.request .reading e amb w' p := by
  obtain ⟨hrest, -, hon⟩ := hat
  rw [Request.prog_eq hon] at hrest
  obtain ⟨rfl, rfl⟩ := h.queue_inv hrest (fun _ hc => by cases hc)
  show ∃ r' p, Task.review (r.answered (.get _) _ (w.shared.queue.get r.request.id)) = .review r' ∧
    _ ∧ _ ∧ PointStep D w r.request .reading e amb w p
  cases hget : w.shared.queue.get r.request.id with
  | none =>
    exact ⟨_, .returned, rfl, rfl, ⟨⟨_, rfl⟩, rfl⟩, .skips (fun cur hcur => by
      rw [hget] at hcur
      cases hcur)⟩
  | some cur =>
    by_cases hfits : r.request.Fits D cur
    · obtain ⟨p, hat, hstep⟩ := Review.at_next
        (r := r.answered (.get r.request.id) (r.request.next D) (some cur)) rfl rfl hget hfits
      exact ⟨_, p, rfl, rfl, hat, hstep⟩
    · refine ⟨_, .returned, rfl, rfl, ⟨Request.next_skips hfits, rfl⟩, .skips fun cur' hcur => ?_⟩
      rw [hget] at hcur
      cases hcur
      exact hfits

lemma Works.apply_inv (hrest : r.rest = runApplierProg D.deps cur)
    (hsource : cur.source = .workflow) (h : Works D w e amb (.review r) w' t) :
    (∃ a, r.place = none ∧ D.applierCheck w.store cur = some a ∧ w' = w.calls cur ∧
        t = .review (r.answered (.apply cur) (afterApplier D cur) a)) ∨
      (r.place = none ∧ D.applierCheck w.store cur = none ∧ w' = w.calls cur ∧
        t = .review { r with place := some .getting }) ∨
      (∃ q q', r.place = some q ∧ q.out = none ∧ EngineMoves D w q e amb w' q' ∧
        t = .review { r with place := some q' }) ∨
      ∃ q out, r.place = some q ∧ q.out = some out ∧ w' = w ∧
        t = .review (r.answered (.apply cur) (afterApplier D cur) (applierResult cur out)) := by
  rw [runApplierProg_eq] at hrest
  cases h with
  | queue hrest' hc =>
    have heq := hrest.symm.trans hrest'
    cases heq
    exact absurd hsource (hc cur rfl)
  | refused hrest' hs hplace hcheck =>
    have heq := hrest.symm.trans hrest'
    cases heq
    exact .inl ⟨_, hplace, hcheck, rfl, rfl⟩
  | entered hrest' hs hplace hcheck =>
    have heq := hrest.symm.trans hrest'
    cases heq
    exact .inr (.inl ⟨hplace, hcheck, rfl, rfl⟩)
  | engine hrest' hs hplace hout hm => exact .inr (.inr (.inl ⟨_, _, hplace, hout, hm, rfl⟩))
  | returned hrest' hs hplace hout =>
    have heq := hrest.symm.trans hrest'
    cases heq
    exact .inr (.inr (.inr ⟨_, _, hplace, hout, rfl, rfl⟩))

lemma at_afterApplier (D : Desk τ) (r : Review) (cur : ApprovalProposal)
    (hno : ∀ res, a = .ok res → res.success = false) : ∃ p, (p = .returned ∨ p = .undoing cur) ∧
      (r.answered (.apply cur) (afterApplier D cur) a).At D p := by
  cases a with
  | error err => exact ⟨.returned, .inl rfl, ⟨.error err, rfl⟩, rfl⟩
  | ok res =>
    refine ⟨.undoing cur, .inr rfl, ?_, rfl⟩
    show afterApplier D cur (.ok res) = undoProg D cur
    rw [afterApplier, hno res rfl]
    rfl

lemma applierCheck_fails {st : Store} (h : D.applierCheck st cur = some a) :
    ∀ res, a = .ok res → res.success = false := by
  rintro res rfl
  unfold Desk.applierCheck at h
  split at h
  · cases h
    rfl
  · split at h
    · cases h
    · cases h
      rfl
    · split at h
      · cases h
        rfl
      · split at h <;> cases h
        rfl

lemma applierResult_cases (cur : ApprovalProposal) (out : WorkflowExecutionResult) :
    (∃ v res, extract cur = .ok (.ok v) ∧ out.ok ∧ applierResult cur out = .ok res ∧ res.success) ∨
      ((∃ v, extract cur = .ok (.ok v)) → out.ok = false) ∧
        ∀ res, applierResult cur out = .ok res → res.success = false := by
  unfold applierResult
  cases hv : extract cur with
  | error err => exact .inr ⟨(fun ⟨v, h⟩ => by cases h), fun res h => by cases h⟩
  | ok v =>
    cases v with
    | error message =>
      refine .inr ⟨(fun ⟨v, h⟩ => by cases h), fun res h => ?_⟩
      cases h
      rfl
    | ok v =>
      cases hok : out.ok with
      | true =>
        refine .inl ⟨v, _, rfl, rfl, rfl, ?_⟩
        unfold resumeResult
        rw [hok]
        rfl
      | false =>
        refine .inr ⟨fun _ => rfl, fun res h => ?_⟩
        cases h
        unfold resumeResult
        rw [hok]
        rfl

lemma Works.undo_inv (hrest : r.rest = undoProg D cur) (h : Works D w e amb (.review r) w' t) :
    ∃ r' p targets, t = .review r' ∧ r'.request = r.request ∧ r'.At D p ∧
      (p = .returned ∨ p = .closing cur) ∧ w' = { w with shared := { w.shared with targets } } := by
  have hcall : undoProg D cur = .call (.rollback cur) (fun back =>
      match back with
      | .error err => .ret (.error err)
      | .ok _ => closeProg D cur) := by
    congr 1
  obtain ⟨rfl, rfl⟩ := h.queue_inv (hrest.trans hcall) (fun _ hc => by cases hc)
  have hshared : ∃ targets, (exec D.deps (.rollback cur) w.shared).2 =
      { w.shared with targets } := by
    simp only [exec]
    split
    · exact ⟨w.shared.targets, rfl⟩
    · exact ⟨_, rfl⟩
  obtain ⟨targets, htargets⟩ := hshared
  rw [htargets]
  cases hback : (exec D.deps (.rollback cur) w.shared).1 with
  | error err => exact ⟨_, .returned, targets, rfl, rfl, ⟨⟨.error err, rfl⟩, rfl⟩, .inl rfl, rfl⟩
  | ok res => exact ⟨_, .closing cur, targets, rfl, rfl, ⟨rfl, rfl⟩, .inr rfl, rfl⟩

theorem Works.point {p : Point} (hat : r.At D p)
    (hsource : ∀ cur, p = .entering cur ∨ (∃ q, p = .resuming cur q) → cur.source = .workflow)
    (h : Works D w e amb (.review r) w' t) :
    ∃ r' p', t = .review r' ∧ r'.request = r.request ∧ r'.At D p' ∧
      PointStep D w r.request p e amb w' p' := by
  cases p with
  | reading => exact h.read_inv hat
  | approving cur =>
    obtain ⟨rfl, r', rfl, hreq, hat'⟩ := h.move_inv hat.1
    exact ⟨r', .returned, rfl, hreq, hat', .approves⟩
  | entering cur =>
    obtain ⟨hrest, hplace⟩ := hat
    rcases h.apply_inv hrest (hsource cur (.inl rfl)) with ⟨a, -, hcheck, rfl, rfl⟩ |
      ⟨-, hcheck, rfl, rfl⟩ | ⟨q, q', hq, -⟩ | ⟨q, out, hq, -⟩
    · obtain ⟨p, hp, hat'⟩ := at_afterApplier D r cur (applierCheck_fails hcheck)
      exact ⟨_, p, rfl, rfl, hat', .refused hcheck hp⟩
    · exact ⟨_, .resuming cur .getting, rfl, rfl, ⟨hrest, rfl⟩, .entered hcheck⟩
    · rw [hplace] at hq
      cases hq
    · rw [hplace] at hq
      cases hq
  | resuming cur q =>
    obtain ⟨hrest, hplace⟩ := hat
    rcases h.apply_inv hrest (hsource cur (.inr ⟨q, rfl⟩)) with ⟨a, hq, -⟩ | ⟨hq, -⟩ |
      ⟨q1, q', hq, hout, hm, rfl⟩ | ⟨q1, out, hq, hout, rfl, rfl⟩
    · rw [hplace] at hq
      cases hq
    · rw [hplace] at hq
      cases hq
    · rw [hplace] at hq
      cases hq
      exact ⟨_, .resuming cur q', rfl, rfl, ⟨hrest, rfl⟩, .engine hout hm⟩
    · rw [hplace] at hq
      cases hq
      rcases applierResult_cases cur out with ⟨v, res, hv, hok, hres, hsuccess⟩ | ⟨hno, hfail⟩
      · refine ⟨_, .applying cur, rfl, rfl, ⟨?_, rfl⟩, .granted hout hv hok⟩
        show afterApplier D cur (applierResult cur out) = _
        rw [hres, afterApplier, hsuccess]
        rfl
      · obtain ⟨p, hp, hat'⟩ := at_afterApplier D r cur hfail
        exact ⟨_, p, rfl, rfl, hat', .turned hout hno hp⟩
  | applying cur =>
    obtain ⟨rfl, r', rfl, hreq, hat'⟩ := h.move_inv hat.1
    exact ⟨r', .returned, rfl, hreq, hat', .applies⟩
  | undoing cur =>
    obtain ⟨r', p, targets, rfl, hreq, hat', hp, rfl⟩ := h.undo_inv hat.1
    exact ⟨r', p, rfl, hreq, hat', .undoes hp⟩
  | closing cur =>
    obtain ⟨rfl, rfl⟩ := h.queue_inv (c := .update { cur with state := .rolledBack })
      (k := fun _ => .ret (audited D.deps { cur with state := .rolledBack } false)) hat.1
      (fun _ hc => by cases hc)
    exact ⟨_, .returned, rfl, rfl, ⟨⟨_, rfl⟩, rfl⟩, .closes⟩
  | returned =>
    obtain ⟨⟨a, ha⟩, -⟩ := hat
    cases h with
    | queue hrest | refused hrest | entered hrest | engine hrest | returned hrest =>
      rw [ha] at hrest
      cases hrest

end

end AegisGate.Workflow
