import AegisGate.Autonomy.ApprovalRace
import AegisGate.Lib.Position

/-!
# Approval operations that take turns

The operations of `AegisGate.Autonomy.ApprovalRace` again, in runs in which an operation reads a
proposal only when no other operation on it is under way, and an `apply` that has called the applier
goes through with it.

* `Busy`  an operation on the proposal is under way;
* `Serial`  what a step has to find;
* `Orderly`  the invariant of such runs: what an operation under way has read is still stored, and a
  proposal that was applied is past being applied again, unless its `apply` is under way.

Operations on different proposals still interleave in any way; the stored states follow the machine
(`lifecycle_of_serial`).
-/

namespace AegisGate.Autonomy

open List Position Json

variable {τ : Type}

abbrev ApprovalThread := Proc.Thread QueueCall QueueCall.Answer (Except TypeError Bool)

def Busy (id : String) (th : ApprovalThread) : Prop :=
  (∃ c k, th.rest = .call c k) ∧ ∃ cur, Origin th.past id cur

/-- the call does its work: the queue takes the update, the applier does not throw -/
def Through : (c : QueueCall) → c.Answer → Prop
  | .get _, _ => True
  | .update _, accepted => accepted = true
  | .apply _, r => ∃ result, r = .ok result
  | .rollback _, r => ∃ result, r = .ok result

/-- a proposal is read while no operation on it is under way, and from the applier call of an `apply`
on its calls do their work -/
structure Serial (d : WorkflowDeps τ) (P : ApprovalPool τ) (e : RaceEvent) : Prop where
  alone : ∀ past id, P.pending (e.toEvent d) = some (past, .get id) → ∀ th ∈ P.threads, ¬ Busy id th
  through : ∀ past c, P.pending (e.toEvent d) = some (past, c) →
    (Called past ∨ ∃ p, c = .apply p) → Through c (exec d c P.store).1

structure Orderly (P : ApprovalPool τ) : Prop where
  keyed : ∀ id p, P.store.queue.get id = some p → p.id = id
  kept : ∀ th ∈ P.threads, KeepsRead th.rest th.past
  current : ∀ th ∈ P.threads, (∃ c k, th.rest = .call c k) → ∀ id cur, Origin th.past id cur →
    cur.id = id ∧ storedState id P = some cur.state
  alone : ∀ (i j : ℕ) (th th' : ApprovalThread) (id : String), P.threads[i]? = some th →
    P.threads[j]? = some th' → Busy id th → Busy id th' → i = j
  settled : ∀ id ∈ P.store.applied, (∃ th ∈ P.threads, Busy id th ∧ Called th.past) ∨
    ∀ x, storedState id P = some x → Spent x

/-! ## what a step finds -/

section
variable {d : WorkflowDeps τ} {P : ApprovalPool τ} {e : RaceEvent}
  {past : List ((c : QueueCall) × c.Answer)} {c : QueueCall}

lemma pending_thread (h : P.pending (e.toEvent d) = some (past, c)) :
    ∃ i k, e = .step i ∧ P.threads[i]? = some ⟨past, .call c k⟩ := by
  cases e with
  | arrive r => cases h
  | step i =>
    obtain ⟨k, hk⟩ := Proc.Pool.pending_iff.1 h
    exact ⟨i, k, rfl, hk⟩

lemma rest_call (past : List ((c : QueueCall) × c.Answer)) {c : QueueCall}
    (k : c.Answer → Prog (Except TypeError Bool)) :
    ∃ c' k', (⟨past, .call c k⟩ : ApprovalThread).rest = .call c' k' := ⟨c, k, rfl⟩

lemma not_busy_new {id : String} {rest : Prog (Except TypeError Bool)} : ¬ Busy id ⟨[], rest⟩ := by
  rintro ⟨-, cur, horigin⟩
  cases horigin

lemma origin_read {id : String} {cur : ApprovalProposal} :
    Origin [⟨.get id, some cur⟩] id cur := rfl

lemma Orderly.called_or_spent {i : ℕ} {th : ApprovalThread} {id : String} (h : Orderly P)
    (hi : P.threads[i]? = some th) (hbusy : Busy id th) (hid : id ∈ P.store.applied) :
    Called th.past ∨ ∀ x, storedState id P = some x → Spent x := by
  rcases h.settled id hid with ⟨th', hth', hbusy', hcalled⟩ | hspent
  · obtain ⟨j, hj⟩ := mem_iff_getElem?.1 hth'
    have hij := h.alone i j th th' id hi hj hbusy hbusy'
    subst hij
    rw [hi] at hj
    cases hj
    exact .inl hcalled
  · exact .inr hspent

lemma Orderly.fits (h : Orderly P) : StepFits d P e := by
  refine ⟨?_, ?_, ?_⟩
  · intro past p x hp _ hx
    obtain ⟨i, k, -, hi⟩ := pending_thread hp
    have hmem := mem_of_getElem? hi
    obtain ⟨-, id, cur, horigin, hid, hdoc, -⟩ := (h.kept _ hmem).1
    obtain ⟨hcur, hstored⟩ := h.current _ hmem (rest_call _ k) id cur horigin
    rw [← hcur, hid, hx] at hstored
    cases hstored
    exact .inr hdoc
  · intro past p hp happlied
    obtain ⟨i, k, -, hi⟩ := pending_thread hp
    have hmem := mem_of_getElem? hi
    obtain ⟨id, rfl, hst⟩ := (h.kept _ hmem).1
    obtain ⟨rfl, hstored⟩ := h.current _ hmem (rest_call _ k) id p origin_read
    rcases h.called_or_spent hi ⟨rest_call _ k, p, origin_read⟩ happlied with hcalled | hspent
    · exact not_called_read hcalled
    · exact (hspent _ hstored).2 hst
  · intro past p hp hrej
    obtain ⟨i, k, -, hi⟩ := pending_thread hp
    have hmem := mem_of_getElem? hi
    obtain ⟨id, rfl, hst⟩ := (h.kept _ hmem).1
    obtain ⟨rfl, hstored⟩ := h.current _ hmem (rest_call _ k) id p origin_read
    rw [hrej, hst] at hstored
    cases hstored

end

/-! ## one operation makes a call -/

section
variable {d : WorkflowDeps τ} {P : ApprovalPool τ} {i : ℕ} {th th' : ApprovalThread}
  {past : List ((c : QueueCall) × c.Answer)} {c : QueueCall} {id : String} {cur : ApprovalProposal}
  {p : ApprovalProposal} {r : c.Answer} {s' : Shared τ} {rest : Prog (Except TypeError Bool)}
  {k : Except TypeError ApplyResult → Prog (Except TypeError Bool)}

lemma Origin.unique {id' : String} {cur' : ApprovalProposal} (h : Origin past id cur)
    (h' : Origin past id' cur') : id = id' ∧ cur = cur' := by
  have heq := Option.some.inj (h.symm.trans h')
  cases heq
  exact ⟨rfl, rfl⟩

lemma origin_cons {x : (c : QueueCall) × c.Answer} (h : Origin past id cur) :
    Origin (x :: past) id cur := by
  unfold Origin at h ⊢
  rw [getLast?_cons, h]
  rfl

lemma Orderly.not_busy_of_ne {j : ℕ} {th2 : ApprovalThread} (h : Orderly P)
    (hi : P.threads[i]? = some th) (hne : j ≠ i) (hj : P.threads[j]? = some th2)
    (hbusy : Busy id th2) : ¬ Busy id th :=
  fun hth => hne (h.alone j i th2 th id hj hi hbusy hth)

lemma Orderly.alone_set (h : Orderly P) (hi : P.threads[i]? = some th)
    (hnew : ∀ id, Busy id th' → Busy id th ∨ ∀ th2 ∈ P.threads, ¬ Busy id th2) (j1 j2 : ℕ)
    (th1 th2 : ApprovalThread) (id : String) (hj1 : (P.threads.set i th')[j1]? = some th1)
    (hj2 : (P.threads.set i th')[j2]? = some th2) (hb1 : Busy id th1) (hb2 : Busy id th2) :
    j1 = j2 := by
  have hfree : ∀ {j : ℕ} {th2 : ApprovalThread}, Busy id th' → j ≠ i →
      P.threads[j]? = some th2 → ¬ Busy id th2 := by
    intro j th2 hb hne hj hb2
    rcases hnew id hb with hth | hnone
    · exact h.not_busy_of_ne hi hne hj hb2 hth
    · exact hnone th2 (mem_of_getElem? hj) hb2
  rcases getElem?_set_cases hj1 with ⟨heq1, rfl⟩ | ⟨hne1, hold1⟩ <;>
    rcases getElem?_set_cases hj2 with ⟨heq2, rfl⟩ | ⟨hne2, hold2⟩
  · rw [heq1, heq2]
  · exact absurd hb2 (hfree hb1 hne2 hold2)
  · exact absurd hb1 (hfree hb2 hne1 hold1)
  · exact h.alone j1 j2 th1 th2 id hold1 hold2 hb1 hb2

lemma Orderly.advance (h : Orderly P) (hi : P.threads[i]? = some th)
    (hkeyed : ∀ id p, s'.queue.get id = some p → p.id = id) (hkept : KeepsRead th'.rest th'.past)
    (hnew : ∀ id, Busy id th' → Busy id th ∨ ∀ th2 ∈ P.threads, ¬ Busy id th2)
    (hcur : (∃ c k, th'.rest = .call c k) → ∀ id cur, Origin th'.past id cur →
      cur.id = id ∧ (s'.queue.get id).map (·.state) = some cur.state)
    (hsame : ∀ id, ¬ Busy id th → s'.queue.get id = P.store.queue.get id)
    (hsettled : ∀ id ∈ s'.applied, (Busy id th' ∧ Called th'.past) ∨
      (∀ x, (s'.queue.get id).map (·.state) = some x → Spent x) ∨
      id ∈ P.store.applied ∧ ¬ (Busy id th ∧ Called th.past) ∧
        s'.queue.get id = P.store.queue.get id) :
    Orderly ({ store := s', threads := P.threads.set i th' } : ApprovalPool τ) := by
  refine ⟨hkeyed, ?_, ?_, h.alone_set hi hnew, ?_⟩
  · intro th2 hth2
    rcases mem_set_cases hth2 with rfl | ⟨j, -, hj⟩
    · exact hkept
    · exact h.kept th2 (mem_of_getElem? hj)
  · intro th2 hth2 hrest id cur horigin
    rcases mem_set_cases hth2 with rfl | ⟨j, hne, hj⟩
    · exact hcur hrest id cur horigin
    · obtain ⟨hid, hstored⟩ := h.current th2 (mem_of_getElem? hj) hrest id cur horigin
      refine ⟨hid, ?_⟩
      show (s'.queue.get id).map (·.state) = some cur.state
      rw [hsame id (h.not_busy_of_ne hi hne hj ⟨hrest, cur, horigin⟩)]
      exact hstored
  · intro id hid
    rcases hsettled id hid with hth' | hspent | ⟨hold, hnot, hqueue⟩
    · exact .inl ⟨th', mem_of_getElem? (getElem?_set_of_some hi), hth'⟩
    · exact .inr hspent
    · rcases h.settled id hold with ⟨th2, hth2, hb⟩ | hspent
      · obtain ⟨j, hj⟩ := mem_iff_getElem?.1 hth2
        have hne : j ≠ i := by
          rintro rfl
          rw [hi] at hj
          cases hj
          exact hnot hb
        exact .inl ⟨th2, mem_set_of_ne hne hj, hb⟩
      · right
        intro x hx
        apply hspent x
        show (P.store.queue.get id).map (·.state) = some x
        rw [← hqueue]
        exact hx

lemma ended_of_update {b : Bool} (h : KeepsRead rest (⟨.update p, b⟩ :: past)) :
    ¬ ∃ c k, rest = .call c k := by
  rintro ⟨c, k, rfl⟩
  have hok := h.1
  cases c with
  | get id => cases hok
  | update q => exact hok.1 p b mem_cons_self
  | apply q =>
    obtain ⟨id, heq, -⟩ := hok
    cases heq
  | rollback q => exact hok.1 p b mem_cons_self

lemma calls_of_through (h : KeepsRead rest (⟨c, r⟩ :: past)) (hcalled : Called (⟨c, r⟩ :: past))
    (hthrough : Through c r) (hc : ∀ p, c ≠ .update p) : ∃ c' k, rest = .call c' k := by
  cases rest with
  | call c' k => exact ⟨c', k, rfl⟩
  | ret a =>
    obtain ⟨c1, r1, tail, heq, hcloses⟩ := h hcalled
    cases heq
    cases c with
    | get id => exact hcloses.elim
    | update p => exact absurd rfl (hc p)
    | apply p | rollback p =>
      obtain ⟨result, rfl⟩ := hthrough
      exact hcloses.elim

lemma spent_of_documented {x y : ApprovalState} (hx : Spent x) (h : Documented x y) : Spent y := by
  unfold Spent at hx ⊢
  revert hx h
  cases x <;> cases y <;> decide

section
variable (h : Orderly P)
include h

lemma Orderly.frame {k : c.Answer → Prog (Except TypeError Bool)}
    (hi : P.threads[i]? = some ⟨past, .call c k⟩) (hread : ∃ id cur, Origin past id cur)
    (hqueue : s'.queue = P.store.queue) (hsettled : ∀ id ∈ s'.applied,
      (Busy id ⟨⟨c, r⟩ :: past, k r⟩ ∧ Called (⟨c, r⟩ :: past)) ∨
        id ∈ P.store.applied ∧ ¬ (Busy id ⟨past, .call c k⟩ ∧ Called past)) :
    Orderly ({ store := s', threads := P.threads.set i ⟨⟨c, r⟩ :: past, k r⟩ } :
      ApprovalPool τ) := by
  have hmem := mem_of_getElem? hi
  obtain ⟨id0, cur0, hread⟩ := hread
  refine h.advance hi ?_ ((h.kept _ hmem).2 r trivial) ?_ ?_ ?_ ?_
  · rw [hqueue]
    exact h.keyed
  · rintro id ⟨-, cur, horigin⟩
    obtain ⟨rfl, rfl⟩ := (origin_cons hread).unique horigin
    exact .inl ⟨rest_call past k, cur0, hread⟩
  · intro _ id cur horigin
    obtain ⟨rfl, rfl⟩ := (origin_cons hread).unique horigin
    rw [hqueue]
    exact h.current _ hmem (rest_call past k) id0 cur0 hread
  · intro id _
    rw [hqueue]
  · intro id hid
    rcases hsettled id hid with hbusy | ⟨hold, hnot⟩
    · exact .inl hbusy
    · exact .inr (.inr ⟨hold, hnot, by rw [hqueue]⟩)

lemma Orderly.get {k : Option ApprovalProposal → Prog (Except TypeError Bool)}
    (hi : P.threads[i]? = some ⟨past, .call (.get id) k⟩)
    (halone : ∀ th ∈ P.threads, ¬ Busy id th) :
    Orderly ({ store := P.store
               threads := P.threads.set i
                 ⟨⟨.get id, P.store.queue.get id⟩ :: past, k (P.store.queue.get id)⟩ } :
      ApprovalPool τ) := by
  have hmem := mem_of_getElem? hi
  have hpast : past = [] := (h.kept _ hmem).1
  subst hpast
  have hread : ∀ {id' : String} {cur : ApprovalProposal},
      Origin [⟨.get id, P.store.queue.get id⟩] id' cur →
      id' = id ∧ P.store.queue.get id = some cur := by
    intro id' cur horigin
    have heq := Option.some.inj horigin
    generalize P.store.queue.get id = o at heq
    cases heq
    exact ⟨rfl, rfl⟩
  refine h.advance hi h.keyed ((h.kept _ hmem).2 _ trivial) ?_ ?_ (fun _ _ => rfl) ?_
  · rintro id' ⟨-, cur, horigin⟩
    obtain ⟨rfl, -⟩ := hread horigin
    exact .inr halone
  · intro _ id' cur horigin
    obtain ⟨rfl, hget⟩ := hread horigin
    rw [hget]
    exact ⟨h.keyed id' cur hget, rfl⟩
  · intro id' hid
    refine .inr (.inr ⟨hid, ?_, rfl⟩)
    rintro ⟨-, p, r, hmem⟩
    cases hmem

lemma Orderly.update {k : Bool → Prog (Except TypeError Bool)}
    (hi : P.threads[i]? = some ⟨past, .call (.update p) k⟩)
    (hthrough : Called past → (P.store.queue.update d.digest p).2) :
    Orderly ({ store := { P.store with queue := (P.store.queue.update d.digest p).1 }
               threads := P.threads.set i
                 ⟨⟨.update p, (P.store.queue.update d.digest p).2⟩ :: past,
                   k (P.store.queue.update d.digest p).2⟩ } : ApprovalPool τ) := by
  have hmem := mem_of_getElem? hi
  obtain ⟨⟨-, id, cur, hread, hid, hdoc, hspent⟩, hrest⟩ := h.kept _ hmem
  have hcall := rest_call past (c := .update p) k
  obtain ⟨rfl, hstored⟩ := h.current _ hmem hcall id cur hread
  have hbusy : Busy p.id ⟨past, .call (.update p) k⟩ := ⟨hcall, cur, hid ▸ hread⟩
  have hend := ended_of_update (hrest (P.store.queue.update d.digest p).2 trivial)
  refine h.advance hi ?_ (hrest _ trivial) (fun _ hb => absurd hb.1 hend)
    (absurd · hend) ?_ ?_
  · intro id' p' hget
    rw [get_update] at hget
    split at hget
    · next hacc =>
      cases hget
      exact hacc.2.symm
    · exact h.keyed id' p' hget
  · intro id' hnot
    rw [get_update, if_neg]
    rintro ⟨-, rfl⟩
    exact hnot hbusy
  · intro id' hid'
    by_cases heq : id' = p.id
    · subst heq
      refine .inr (.inl fun x hx => ?_)
      rw [hid] at hstored
      -- the proposal was spent before, or this is the `apply` that spent it
      have hor : Called past ∨ Spent cur.state :=
        (h.called_or_spent hi hbusy hid').imp_right fun hsp => hsp cur.state hstored
      rw [get_update] at hx
      split at hx
      · cases hx
        rcases hor with hcalled | hsp
        · exact hspent hcalled
        · exact spent_of_documented hsp hdoc
      · next hrefused =>
        rcases hor with hcalled | hsp
        · exact absurd ⟨hthrough hcalled, rfl⟩ hrefused
        · have hsame : some x = some cur.state := hx.symm.trans hstored
          cases hsame
          exact hsp
    · refine .inr (.inr ⟨hid', ?_, ?_⟩)
      · rintro ⟨⟨-, cur', horigin⟩, -⟩
        obtain ⟨hid1, -⟩ := hread.unique horigin
        exact heq (hid1.symm.trans hid)
      · rw [get_update, if_neg (heq ·.2)]

theorem Orderly.apply (hi : P.threads[i]? = some ⟨past, .call (.apply p) k⟩)
    (hthrough : Through (.apply p) (exec d (.apply p) P.store).1) :
    Orderly ({ store := (exec d (.apply p) P.store).2
               threads := P.threads.set i
                 ⟨⟨.apply p, (exec d (.apply p) P.store).1⟩ :: past,
                   k (exec d (.apply p) P.store).1⟩ } : ApprovalPool τ) := by
  have hmem := mem_of_getElem? hi
  obtain ⟨⟨id, rfl, -⟩, hrest⟩ := h.kept _ hmem
  obtain ⟨rfl, -⟩ := h.current _ hmem (rest_call _ (c := .apply p) k) id p origin_read
  have hcalled : Called (⟨.apply p, (exec d (.apply p) P.store).1⟩ :: [⟨.get p.id, some p⟩]) :=
    ⟨p, _, mem_cons_self⟩
  refine h.frame hi ⟨p.id, p, origin_read⟩ (queue_exec (.apply p) P.store) ?_
  intro id' hid'
  rw [applied_exec] at hid'
  rcases mem_cons.1 hid' with rfl | hold
  · have hcall := calls_of_through (hrest _ trivial) hcalled hthrough nofun
    exact .inl ⟨⟨hcall, p, origin_cons origin_read⟩, hcalled⟩
  · exact .inr ⟨hold, fun hb => not_called_read hb.2⟩

lemma Orderly.rollback (hi : P.threads[i]? = some ⟨past, .call (.rollback p) k⟩)
    (hthrough : Called past → Through (.rollback p) (exec d (.rollback p) P.store).1) :
    Orderly ({ store := (exec d (.rollback p) P.store).2
               threads := P.threads.set i
                 ⟨⟨.rollback p, (exec d (.rollback p) P.store).1⟩ :: past,
                   k (exec d (.rollback p) P.store).1⟩ } : ApprovalPool τ) := by
  have hmem := mem_of_getElem? hi
  obtain ⟨⟨-, hread⟩, hrest⟩ := h.kept _ hmem
  refine h.frame hi hread (queue_exec (.rollback p) P.store) ?_
  intro id hid
  rw [applied_exec] at hid
  by_cases hb : Busy id ⟨past, .call (.rollback p) k⟩ ∧ Called past
  · obtain ⟨⟨-, cur, horigin⟩, hcalled⟩ := hb
    obtain ⟨q, r, hq⟩ := hcalled
    have hcalled' : Called (⟨.rollback p, (exec d (.rollback p) P.store).1⟩ :: past) :=
      ⟨q, r, mem_cons_of_mem _ hq⟩
    have hcall := calls_of_through (hrest _ trivial) hcalled' (hthrough ⟨q, r, hq⟩)
      nofun
    exact .inl ⟨⟨hcall, cur, origin_cons horigin⟩, hcalled'⟩
  · exact .inr ⟨hid, hb⟩

lemma Orderly.arrive (r : ApprovalRequest) :
    Orderly ({ P with threads := P.threads ++ [⟨[], r.prog d⟩] } : ApprovalPool τ) := by
  have hold : ∀ {j : ℕ} {th : ApprovalThread} {id : String}, Busy id th →
      (P.threads ++ [⟨[], r.prog d⟩])[j]? = some th → P.threads[j]? = some th := by
    intro j th id hb hj
    rw [getElem?_append] at hj
    split at hj
    · exact hj
    · rw [mem_singleton.1 (mem_of_getElem? hj)] at hb
      exact absurd hb not_busy_new
  refine ⟨h.keyed, ?_, ?_, ?_, ?_⟩
  · exact forall_mem_append.2 ⟨h.kept, forall_mem_singleton.2 (kept_prog r)⟩
  · refine forall_mem_append.2 ⟨h.current, forall_mem_singleton.2 fun _ id cur horigin => ?_⟩
    cases horigin
  · intro i j th th' id hi hj hb hb'
    exact h.alone i j th th' id (hold hb hi) (hold hb' hj) hb hb'
  · intro id hid
    rcases h.settled id hid with ⟨th, hth, hb⟩ | hspent
    · exact .inl ⟨th, mem_append_left _ hth, hb⟩
    · exact .inr hspent

lemma Orderly.step {e : RaceEvent} (hser : Serial d P e) : Orderly (raceStep d P e) := by
  cases e with
  | arrive r => exact h.arrive r
  | step i =>
    cases hpend : P.pending (.step i) with
    | none =>
      show Orderly (P.step (Autonomy.exec d) (.step i))
      rw [Proc.Pool.step_of_not_pending hpend]
      exact h
    | some pc =>
      obtain ⟨past, c⟩ := pc
      obtain ⟨k, hi⟩ := Proc.Pool.pending_iff.1 hpend
      show Orderly (P.step (Autonomy.exec d) (.step i))
      rw [Proc.Pool.step_eq hi]
      cases c with
      | get id => exact h.get hi (hser.alone past id hpend)
      | update p =>
        exact h.update hi fun hcalled => hser.through past (.update p) hpend (.inl hcalled)
      | apply p => exact h.apply hi (hser.through past (.apply p) hpend (.inr ⟨p, rfl⟩))
      | rollback p =>
        exact h.rollback hi fun hcalled => hser.through past (.rollback p) hpend (.inl hcalled)

end

end

/-! ## runs in which the operations take turns -/

section
variable {d : WorkflowDeps τ} {P : ApprovalPool τ} {e : RaceEvent}
  {past : List ((c : QueueCall) × c.Answer)} {c : QueueCall}

lemma serial_arrive (r : ApprovalRequest) : Serial d P (.arrive r) where
  alone _ _ h := by cases h
  through _ _ h := by cases h

lemma serial_get {id : String} (h : P.pending (e.toEvent d) = some (past, .get id))
    (halone : ∀ th ∈ P.threads, ¬ Busy id th) : Serial d P e where
  alone past' id' h' := by
    rw [h] at h'
    cases h'
    exact halone
  through past' c' h' _ := by
    rw [h] at h'
    cases h'
    exact trivial

lemma serial_call (h : P.pending (e.toEvent d) = some (past, c)) (hc : ∀ id, c ≠ .get id)
    (hthrough : Through c (exec d c P.store).1) : Serial d P e where
  alone past' id' h' := by
    rw [h] at h'
    cases h'
    exact absurd rfl (hc _)
  through past' c' h' _ := by
    rw [h] at h'
    cases h'
    exact hthrough

end

/-- in every `Serial` run from a queue keyed by id: the stored states follow the machine, no
proposal is applied twice and none after it was rejected -/
theorem lifecycle_of_serial {d : WorkflowDeps τ} {q : ApprovalQueue} (t : τ)
    (hq : ∀ id p, q.get id = some p → p.id = id) {events : List RaceEvent}
    (h : Run.Along (raceStep d) (Serial d) (idlePool q t) events) :
    Lifecycle d (idlePool q t) events := by
  rw [lifecycle_iff]
  exact Run.Along.of_inv (I := Orderly) (fun P e hP hser => ⟨hP.fits, hP.step hser⟩)
    ⟨hq, nofun, nofun, nofun, nofun⟩ h

/-- the second call of `apply` reads `p1` when the first is done -/
def applyInTurn : List RaceEvent :=
  [.arrive (.apply true "p1"), .arrive (.apply true "p1"), .step 0, .step 0, .step 0, .step 1]

theorem lifecycle_of_serial_turns :
    (∀ id p, approvedQueue.get id = some p → p.id = id) ∧
      Run.Along (raceStep countingDeps) (Serial countingDeps) (idlePool approvedQueue 0)
        applyInTurn ∧ Lifecycle countingDeps (idlePool approvedQueue 0) applyInTurn := by
  have hq : ∀ id p, approvedQueue.get id = some p → p.id = id := by
    intro id p hp
    by_cases hid : id = "p1"
    · subst hid
      cases hp
      rfl
    · have hnone : approvedQueue.get id = none := AList.lookup_insert_ne hid
      cases hnone.symm.trans hp
  have hser : Run.Along (raceStep countingDeps) (Serial countingDeps) (idlePool approvedQueue 0)
      applyInTurn := by
    refine ⟨serial_arrive _, serial_arrive _, serial_get rfl ?_, serial_call rfl ?_ ⟨_, rfl⟩,
      serial_call rfl ?_ rfl, serial_get rfl ?_, trivial⟩
    · -- the other call has read nothing
      intro th hth
      rcases mem_cons.1 hth with rfl | hth
      · exact not_busy_new
      · rw [mem_singleton.1 hth]
        exact not_busy_new
    · exact nofun
    · exact nofun
    · -- the first call is done
      intro th hth
      rcases mem_cons.1 hth with rfl | hth
      · rintro ⟨⟨c, k, hcall⟩, -⟩
        cases hcall
      · rw [mem_singleton.1 hth]
        exact not_busy_new
  exact ⟨hq, hser, lifecycle_of_serial 0 hq hser⟩

/-! ## the queue and its store -/

/-- the store has the records of the proposals in memory, and no others -/
def Mirrored (dg : Digest) (q : ApprovalQueue) : Prop :=
  ∃ rows, q.store = some rows ∧ ∀ id, rows.lookup id = (q.get id).map (toRecord dg)

lemma Mirrored.put {dg : Digest} {q : ApprovalQueue} (h : Mirrored dg q) (p : ApprovalProposal) :
    Mirrored dg (q.insert dg p).1 ∧ Mirrored dg (q.update dg p).1 := by
  obtain ⟨rows, hrows, hids⟩ := h
  have hput : Mirrored dg ⟨some (rows.insert p.id (toRecord dg p)), q.cache.insert p.id p⟩ := by
    refine ⟨_, rfl, fun id => ?_⟩
    show _ = ((q.cache.insert p.id p).lookup id).map _
    by_cases hid : id = p.id
    · rw [hid, AList.lookup_insert, AList.lookup_insert]
      rfl
    · rw [AList.lookup_insert_ne hid, AList.lookup_insert_ne hid]
      exact hids id
  unfold ApprovalQueue.insert ApprovalQueue.update insertApprovalProposal updateApprovalProposal
  simp only [hrows]
  constructor <;> split_ifs <;> first | exact hput | exact ⟨rows, hrows, hids⟩

/-- one insertion, or one operation from its first call to its last -/
def serve (d : WorkflowDeps τ) (s : Shared τ) : ApprovalProposal ⊕ ApprovalRequest → Shared τ
  | .inl p => { s with queue := (s.queue.insert d.digest p).1 }
  | .inr r => ((r.prog d).run (exec d) s).2

/-- one after the other, insertions and operations, which an applier may end by throwing, leave
the same proposals in memory and in the store -/
theorem queue_mirrored (d : WorkflowDeps τ) (t : τ) (l : List (ApprovalProposal ⊕ ApprovalRequest)) :
    Mirrored d.digest (Run.exec (serve d) ⟨⟨some ∅, ∅⟩, t, []⟩ l).queue := by
  have hcall : ∀ c (s : Shared τ), Mirrored d.digest s.queue →
      Mirrored d.digest (exec d c s).2.queue := by
    intro c s h
    rw [queue_exec]
    cases c with
    | update p => exact (h.put p).2
    | _ => exact h
  refine Run.exec_inv (P := fun _ => True) (I := fun s : Shared τ => Mirrored d.digest s.queue)
    (fun s e _ h => ?_) l _ ⟨∅, rfl, fun _ => rfl⟩ fun _ _ => trivial
  cases e with
  | inl p => exact (h.put p).1
  | inr r => exact Proc.run_inv (I := fun s => Mirrored d.digest s.queue) hcall (r.prog d) s h

end AegisGate.Autonomy
