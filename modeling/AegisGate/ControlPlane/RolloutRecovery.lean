import AegisGate.ControlPlane.RolloutRace
import AegisGate.ControlPlane.RolloutRestore

/-!
# Recovering a half persisted promotion

The last promotion of a rollout activates the target and then stores the rollout as completed.  When
the second write fails, the rollout is still progressing although its target is active.  Two calls can
come next: the operator promotes again, or the ticker finds the rollout and reconciles it.

* `HalfPersisted s id r`  the store after such a promotion, working again (`promote_halfPersisted`);
* `Ticked readings now l`  what the ticker does at the rollouts `l`: it leaves the others alone, and
  the last automatic rollback among `l` says which version is active;
* `reconciles`  the ticker reaches the rollout and finds the target active.

A second promotion does not recover the rollout, it fails it: `ConfigServiceCore::activate` refuses a
version that is active already.
-/

namespace AegisGate.ControlPlane

open MemoryPersistentStore List Proc Table

/-! ## versions that can be restored -/

/-- `ConfigServiceCore::rollback` accepts the version; for the active one it does nothing -/
def restorable (s : MemoryPersistentStore) (versionId : String) : Bool :=
  (s.configVersions.find versionId).any (fun v => (next v.status .rollbackTo).isSome)

section
variable {s s' : MemoryPersistentStore}

lemma restorable_iff {versionId : String} :
    restorable s versionId ↔ ∃ v, s.configVersions.find versionId = some v ∧
        (v.status = .active ∨ v.status = .superseded) := by
  have hst : ∀ st : ConfigStatus,
      (next st .rollbackTo).isSome ↔ st = .active ∨ st = .superseded := by
    intro st
    cases st <;> decide
  simp only [restorable, Option.any_eq_true, hst]

lemma restorable_switchTo (h : Pointed s) {versionId : String} {target : ConfigVersionRecord}
    (hfind : s.configVersions.find versionId = some target) (hst : target.status = .superseded)
    (activator : String) (ms : ℤ) (k : String) :
    restorable (s.switchTo versionId activator ms target) k = restorable s k := by
  rw [Bool.eq_iff_iff, restorable_iff, restorable_iff, find_switchTo hfind]
  by_cases hk : k = versionId
  · subst hk
    rw [if_pos rfl]
    exact ⟨fun _ => ⟨target, hfind, .inr hst⟩, fun _ => ⟨_, rfl, .inl rfl⟩⟩
  · rw [if_neg hk]
    by_cases hact : k = s.activeConfigVersionId ∧ k ≠ ""
    · obtain ⟨rfl, hne⟩ := hact
      obtain ⟨prev, hprev, hprevst⟩ := h.pointer hne
      rw [if_pos ⟨rfl, hne⟩, hprev]
      exact ⟨fun _ => ⟨prev, rfl, .inl hprevst⟩, fun _ => ⟨demoted ms prev, rfl, .inr rfl⟩⟩
    · rw [if_neg hact]

lemma restorePrevious_effect (h : Pointed s) (r : RolloutRecord) (actor : String) (now : ℤ) :
    (∀ v, restorable ((restorePrevious r actor now).run exec s).2 v = restorable s v) ∧
      ((restorePrevious r actor now).run exec s).2.activeConfigVersionId =
        if restorable s r.previousActiveVersionId then r.previousActiveVersionId
        else s.activeConfigVersionId := by
  rcases run_restorePrevious r actor now s with ⟨v, -, hfind, hst, e⟩ | ⟨hno, e⟩
  · rw [e, if_pos (restorable_iff.2 ⟨v, hfind, .inr hst⟩)]
    exact ⟨restorable_switchTo h hfind hst actor now, rfl⟩
  · rw [e]
    refine ⟨fun _ => rfl, ?_⟩
    split
    · rename_i hrest
      obtain ⟨v, hfind, hst⟩ := restorable_iff.1 hrest
      rcases hno with hno | hno
      · exact absurd hno (h.ne_empty hfind)
      · exact h.active _ v hfind (hst.resolve_right (hno v hfind))
    · rfl

lemma restorable_congr (e : SameConfig s s') (v : String) : restorable s' v = restorable s v := by
  rw [restorable, restorable, e.versions]

end

/-! ## what a controller operation leaves alone -/

lemma exec_initialized (c : StoreCall) (s : MemoryPersistentStore) :
    (exec c s).2.initialized = s.initialized := by
  by_cases hinsert : ∃ r, c = .insertRollout r
  · obtain ⟨r, rfl⟩ := hinsert
    show (s.insertRollout r).2.initialized = _
    rcases insertRollout_cases r s with e | ⟨-, -, -, -, e⟩ <;> rw [e]
    rfl
  by_cases hupdate : ∃ r, c = .updateRollout r
  · obtain ⟨r, rfl⟩ := hupdate
    show (s.updateRollout r).2.initialized = _
    rcases updateRollout_cases r s with e | ⟨-, -, -, e⟩ <;> rw [e]
    rfl
  obtain ⟨versions, active, e⟩ := exec_config (not_exists.1 hinsert) (not_exists.1 hupdate) s
  rw [e]

section
variable {on : String → Prop} {past : Past} {c : StoreCall} {s : MemoryPersistentStore}

lemma ControllerCall.others (hc : ControllerCall on past c) {id : String} {r : RolloutRecord}
    (hid : ¬ on id) (hr : s.rollouts.find id = some r) : (exec c s).2.rollouts.find id = some r := by
  cases c with
  | insertRollout q =>
    show (s.insertRollout q).2.rollouts.find id = some r
    rcases insertRollout_cases q s with e | ⟨-, -, hnew, -, e⟩
    · rw [e]
      exact hr
    · rw [e, putRollout_find, if_neg]
      · exact hr
      · rintro rfl
        rw [hnew] at hr
        cases hr
  | updateRollout q =>
    show (s.updateRollout q).2.rollouts.find id = some r
    rcases updateRollout_cases q s with e | ⟨-, -, -, e⟩
    · rw [e]
      exact hr
    · rw [e, putRollout_find, if_neg]
      · exact hr
      · rintro rfl
        exact hid hc.1
  | _ =>
    rw [exec_rollouts (fun _ h => (by cases h)) fun _ h => (by cases h)]
    exact hr

structure Framed (on : String → Prop) (s s' : MemoryPersistentStore) : Prop where
  inv : RolloutInv s'
  pointed : Pointed s'
  working : s'.initialized = s.initialized
  others : ∀ id r, ¬ on id → s.rollouts.find id = some r → s'.rollouts.find id = some r

lemma run_framed {α : Type} {p : Prog α} {Q : Past → α → Prop} (hheld : Held s past s)
    (hpointed : Pointed s) (hp : wp (ControllerCall on) Admitted past p Q) :
    Framed on s (p.run exec s).2 := by
  have hstep : ∀ past s' c, Held s past s' ∧ Framed on s s' → ControllerCall on past c →
      Admitted c (exec c s').1 ∧
        Held s (⟨c, (exec c s').1⟩ :: past) (exec c s').2 ∧ Framed on s (exec c s').2 := by
    rintro past s' c ⟨hheld', hs'⟩ hc
    have hheld'' := hheld'.call hc.rolloutCall
    exact ⟨exec_admitted c s', hheld'', hheld''.inv, hs'.pointed.call hc,
      (exec_initialized c s').trans hs'.working,
      fun id r hid hr => hc.others hid (hs'.others id r hid hr)⟩
  obtain ⟨-, ⟨-, hframed⟩, -⟩ := run_wp hstep p past s
    ⟨hheld, hheld.inv, hpointed, rfl, fun _ _ _ hr => hr⟩ hp
  exact hframed

lemma held_read (hinv : RolloutInv s) {r : RolloutRecord}
    (hr : s.rollouts.find r.rolloutId = some r) : Held s [⟨.getRollout r.rolloutId, some r⟩] s := by
  refine (Held.start hinv).read rfl fun id q hl => ?_
  simp only [learns] at hl
  split at hl
  · rename_i e
    exact e ▸ hl ▸ hr
  · cases hl

end

/-! ## one turn of the ticker -/

section
variable {s : MemoryPersistentStore} {r : RolloutRecord} (c : ControllerDeps)
  (readings : String → Readings) (wallNowMs : ℤ)

lemma activeConfig_iff (h : Pointed s) {versionId : String} (hne : versionId ≠ "") :
    s.getActiveConfig.map (·.versionId) = some versionId ↔ s.activeConfigVersionId = versionId := by
  unfold getActiveConfig
  by_cases hempty : s.activeConfigVersionId = ""
  · rw [if_pos hempty, hempty]
    simp [Ne.symm hne]
  · obtain ⟨v, hv, -⟩ := h.pointer hempty
    have hkey : v.versionId = s.activeConfigVersionId := key_of_find hv
    rw [if_neg hempty, hv]
    simp [hkey]

lemma run_reconcile (hst : r.status = .progressing) (wallNowMs : ℤ) (s : MemoryPersistentStore) :
    (reconcileActivatedRollout r wallNowMs).run exec s =
      if s.getActiveConfig.map (·.versionId) = some r.targetVersionId then
        s.updateRollout { r with status := .completed, completedAt := wallNowMs }
      else (false, s) := by
  unfold reconcileActivatedRollout
  rw [run_bind, hst]
  by_cases hact : s.getActiveConfig.map (·.versionId) = some r.targetVersionId
  · rw [if_pos hact]
    exact congrArg (run exec · s) (if_neg (not_not_intro hact))
  · rw [if_neg hact]
    exact congrArg (run exec · s) (if_pos hact)

lemma run_evaluateStage (rolloutId : String) (readings : Readings) (wallNowMs : ℤ)
    (s : MemoryPersistentStore) :
    ((evaluateStage c rolloutId readings wallNowMs).run exec s).2 = s ∨
      ∃ r', r'.rolloutId = rolloutId ∧ r'.status = .paused ∧
        ((evaluateStage c rolloutId readings wallNowMs).run exec s).2 = (s.updateRollout r').2 := by
  unfold evaluateStage
  rcases run_withRollout rolloutId _ s with ⟨r, -, hfind, e⟩ | ⟨-, e⟩
  · rw [e]
    have hid : r.rolloutId = rolloutId := key_of_find hfind
    split
    · exact .inl rfl
    split
    · exact .inl rfl
    split
    · exact .inl rfl
    · rename_i next hnext
      rw [run_persist]
      refine .inr ⟨_, ?_, ?_, rfl⟩
      · exact hid
      · exact (attempt_eq_some hnext).2
  · exact .inl e

section
variable (hst : r.status = .progressing)
include hst

lemma run_tickOne_progressing (c : ControllerDeps)
    (readings : String → Readings) (wallNowMs : ℤ) (s : MemoryPersistentStore) :
    ((tickOne c readings wallNowMs r).run exec s).2 =
      if ((reconcileActivatedRollout r wallNowMs).run exec s).1 then
        ((reconcileActivatedRollout r wallNowMs).run exec s).2 else
        ((evaluateStage c r.rolloutId (readings r.rolloutId) wallNowMs).run exec
          ((reconcileActivatedRollout r wallNowMs).run exec s).2).2 := by
  rw [tickOne, if_pos hst, run_bind]
  split
  · rfl
  · rw [run_bind, run_pure]

lemma tickOne_progressing_config (c : ControllerDeps)
    (readings : String → Readings) (wallNowMs : ℤ) (s : MemoryPersistentStore) :
    SameConfig s ((tickOne c readings wallNowMs r).run exec s).2 := by
  have hrec : SameConfig s ((reconcileActivatedRollout r wallNowMs).run exec s).2 := by
    rw [run_reconcile hst]
    split
    · exact updateRollout_config _ _
    · exact ⟨rfl, rfl⟩
  rw [run_tickOne_progressing hst]
  split
  · exact hrec
  · rcases run_evaluateStage c r.rolloutId (readings r.rolloutId) wallNowMs
      ((reconcileActivatedRollout r wallNowMs).run exec s).2 with e | ⟨r', -, -, e⟩
    · rw [e]
      exact hrec
    · rw [e]
      exact hrec.trans (updateRollout_config _ r')

lemma tickOne_completes (hinit : s.initialized) (hr : s.rollouts.find r.rolloutId = some r)
    (hact : s.getActiveConfig.map (·.versionId) = some r.targetVersionId) (c : ControllerDeps)
    (readings : String → Readings) (wallNowMs : ℤ) :
    ((tickOne c readings wallNowMs r).run exec s).2 =
      s.putRollout { r with status := .completed, completedAt := wallNowMs } := by
  have hrec : (reconcileActivatedRollout r wallNowMs).run exec s =
      (true, s.putRollout { r with status := .completed, completedAt := wallNowMs }) := by
    rw [run_reconcile hst, if_pos hact]
    exact updateRollout_ended hinit hr rfl
  rw [run_tickOne_progressing hst, hrec]
  rfl

lemma tickOne_waits (hr : s.rollouts.find r.rolloutId = some r)
    (hact : s.getActiveConfig.map (·.versionId) ≠ some r.targetVersionId) (c : ControllerDeps)
    (readings : String → Readings) (wallNowMs : ℤ) :
    ∃ r', ((tickOne c readings wallNowMs r).run exec s).2.rollouts.find r.rolloutId = some r' ∧
      r'.status ≠ .completed := by
  have hrec : (reconcileActivatedRollout r wallNowMs).run exec s = (false, s) := by
    rw [run_reconcile hst, if_neg hact]
  rw [run_tickOne_progressing hst, hrec, if_neg Bool.false_ne_true]
  have hkeep : r.status ≠ .completed := by rw [hst]; decide
  rcases run_evaluateStage c r.rolloutId (readings r.rolloutId) wallNowMs s with
    e | ⟨r', hid, hpaused, e⟩
  · rw [e]
    exact ⟨r, hr, hkeep⟩
  · rw [e]
    rcases updateRollout_cases r' s with e' | ⟨-, -, -, e'⟩
    · rw [e']
      exact ⟨r, hr, hkeep⟩
    · rw [e', putRollout_find, if_pos hid]
      exact ⟨r', rfl, by rw [hpaused]; decide⟩

end

/-- the ticker rolls the rollout back, and the version it remembers can be restored -/
def restores (s : MemoryPersistentStore) (readings : String → Readings) (wallNowMs : ℤ)
    (r : RolloutRecord) : Bool :=
  decide (r.rolloutId ≠ "" ∧ autoRollbackDue (readings r.rolloutId) wallNowMs r) &&
    restorable s r.previousActiveVersionId

lemma tickOne_effect (h : Pointed s) (hr : s.rollouts.find r.rolloutId = some r)
    (c : ControllerDeps) (readings : String → Readings) (wallNowMs : ℤ) :
    (∀ v, restorable ((tickOne c readings wallNowMs r).run exec s).2 v = restorable s v) ∧
      ((tickOne c readings wallNowMs r).run exec s).2.activeConfigVersionId =
        if restores s readings wallNowMs r then r.previousActiveVersionId
        else s.activeConfigVersionId := by
  by_cases hpaused : r.status = .paused
  · have hprog : r.status ≠ .progressing := by rw [hpaused]; decide
    rw [tickOne, if_neg hprog, if_pos hpaused, run_bind, run_pure]
    rcases run_evaluateAutoRollback c r.rolloutId (readings r.rolloutId) wallNowMs s with
      ⟨q, ⟨hne, hq, hdue⟩, e⟩ | ⟨hno, e⟩
    · obtain rfl : q = r := Option.some.inj (hq.symm.trans hr)
      obtain ⟨hrest, hact⟩ := restorePrevious_effect h q c.systemUserId
        (readings q.rolloutId).configNow
      refine ⟨fun v => (restorable_congr e v).trans (hrest v), ?_⟩
      rw [e.active, hact, restores, decide_eq_true ⟨hne, hdue⟩, Bool.true_and]
    · rw [e]
      refine ⟨fun _ => rfl, ?_⟩
      have hnot : ¬ (r.rolloutId ≠ "" ∧ autoRollbackDue (readings r.rolloutId) wallNowMs r) :=
        fun hd => hno r ⟨hd.1, hr, hd.2⟩
      rw [restores, decide_eq_false hnot, Bool.false_and, if_neg Bool.false_ne_true]
  · have hnot : ¬ (r.rolloutId ≠ "" ∧ autoRollbackDue (readings r.rolloutId) wallNowMs r) :=
      fun hd => hpaused hd.2.1
    rw [restores, decide_eq_false hnot, Bool.false_and, if_neg Bool.false_ne_true]
    by_cases hprog : r.status = .progressing
    · have e := tickOne_progressing_config hprog c readings wallNowMs s
      exact ⟨restorable_congr e, e.active⟩
    · rw [tickOne, if_neg hprog, if_neg hpaused]
      exact ⟨fun _ => rfl, rfl⟩

/-! ## the ticker's loop -/

/-- the active version after the turns of the rollouts `l`: the last one that is restored -/
def activeAfter (s : MemoryPersistentStore) (readings : String → Readings) (wallNowMs : ℤ)
    (l : List RolloutRecord) : String :=
  ((l.filter (restores s readings wallNowMs)).getLast?.map
    (·.previousActiveVersionId)).getD s.activeConfigVersionId

/-- what the ticker has done after the turns of the rollouts `l` -/
structure Ticked (readings : String → Readings) (wallNowMs : ℤ) (l : List RolloutRecord)
    (s s' : MemoryPersistentStore) : Prop extends Framed (· ∈ l.map (·.rolloutId)) s s' where
  restorable : ∀ v, restorable s' v = restorable s v
  active : s'.activeConfigVersionId = activeAfter s readings wallNowMs l

lemma Ticked.cons {readings : String → Readings} {wallNowMs : ℤ} {l : List RolloutRecord}
    {s1 s2 : MemoryPersistentStore} (h1 : Ticked readings wallNowMs [r] s s1)
    (h2 : Ticked readings wallNowMs l s1 s2) : Ticked readings wallNowMs (r :: l) s s2 where
  inv := h2.inv
  pointed := h2.pointed
  working := h2.working.trans h1.working
  others := by
    intro id q hid hq
    rw [map_cons, mem_cons, not_or] at hid
    exact h2.others id q hid.2 (h1.others id q (by simpa using hid.1) hq)
  restorable := fun v => (h2.restorable v).trans (h1.restorable v)
  active := by
    have hfilter : restores s1 readings wallNowMs = restores s readings wallNowMs := by
      funext q
      rw [restores, restores, h1.restorable]
    rw [h2.active, activeAfter, hfilter, h1.active]
    unfold activeAfter
    by_cases hr : restores s readings wallNowMs r
    · rw [filter_cons_of_pos hr, filter_cons_of_pos hr, filter_nil, getLast?_cons, getLast?_cons]
      cases (l.filter (restores s readings wallNowMs)).getLast? <;> rfl
    · rw [filter_cons_of_neg hr, filter_cons_of_neg hr]
      cases (l.filter (restores s readings wallNowMs)).getLast? <;> rfl

lemma tickOne_ticked (hinv : RolloutInv s) (hp : Pointed s)
    (hr : s.rollouts.find r.rolloutId = some r) (c : ControllerDeps)
    (readings : String → Readings) (wallNowMs : ℤ) :
    Ticked readings wallNowMs [r] s ((tickOne c readings wallNowMs r).run exec s).2 := by
  have hknown : known [⟨.getRollout r.rolloutId, some r⟩] r.rolloutId = some r := by
    simp [known, learns]
  have hframed := run_framed (held_read hinv hr) hp (wp_tickOne c readings wallNowMs hknown)
  obtain ⟨hrest, hact⟩ := tickOne_effect hp hr c readings wallNowMs
  refine ⟨⟨hframed.inv, hframed.pointed, hframed.working, ?_⟩, hrest, ?_⟩
  · intro id q hid hq
    exact hframed.others id q (by simpa using hid) hq
  · rw [hact, activeAfter]
    by_cases hres : restores s readings wallNowMs r
    · rw [if_pos hres, filter_cons_of_pos hres]
      rfl
    · rw [if_neg hres, filter_cons_of_neg hres]
      rfl

lemma tickLoop_ticked (l : List RolloutRecord) :
    ∀ s, RolloutInv s → Pointed s → (l.map (·.rolloutId)).Nodup →
      (∀ r ∈ l, s.rollouts.find r.rolloutId = some r) →
      Ticked readings wallNowMs l s ((tickLoop c readings wallNowMs l).run exec s).2 := by
  induction l with
  | nil =>
    intro s hinv hp _ _
    exact ⟨⟨hinv, hp, rfl, fun _ _ _ h => h⟩, fun _ => rfl, rfl⟩
  | cons r l ih =>
    intro s hinv hp hnodup hstored
    rw [map_cons, nodup_cons] at hnodup
    have hone := tickOne_ticked hinv hp (hstored r mem_cons_self) c readings wallNowMs
    rw [tickLoop, run_bind]
    refine hone.cons (ih _ hone.inv hone.pointed hnodup.2 fun q hq => ?_)
    refine hone.others _ q ?_ (hstored q (mem_cons_of_mem r hq))
    intro hmem
    have e : q.rolloutId = r.rolloutId := by simpa using hmem
    exact hnodup.1 (e ▸ mem_map_of_mem hq)

lemma tickLoop_append (l1 l2 : List RolloutRecord) :
    ∀ s, ((tickLoop c readings wallNowMs (l1 ++ l2)).run exec s).2 =
      ((tickLoop c readings wallNowMs l2).run exec
        ((tickLoop c readings wallNowMs l1).run exec s).2).2 := by
  induction l1 with
  | nil => intro s; rfl
  | cons r l1 ih =>
    intro s
    rw [cons_append, tickLoop, tickLoop, run_bind, run_bind]
    exact ih _

end

/-! ## the half persisted promotion -/

/-- the target is active, and its rollout, in its last stage, is stored as progressing -/
structure HalfPersisted (s : MemoryPersistentStore) (rolloutId : String) (r : RolloutRecord) :
    Prop where
  working : s.initialized
  named : rolloutId ≠ ""
  stored : s.rollouts.find rolloutId = some r
  progressing : r.status = .progressing
  last : isLastStage r
  target : r.targetVersionId ≠ ""
  active : s.activeConfigVersionId = r.targetVersionId
  pointed : Pointed s
  rollouts : RolloutInv s

def updateFails : (c : StoreCall) → MemoryPersistentStore → c.Answer × MemoryPersistentStore
  | .updateRollout _, s => (false, s)
  | c, s => exec c s

section
variable {s : MemoryPersistentStore} {id : String} {r : RolloutRecord} {v : ConfigVersionRecord}
  {versionId : String}

lemma run_promoteStage_last
    {step : (c : StoreCall) → MemoryPersistentStore → c.Answer × MemoryPersistentStore}
    (hload : (ask (.getRollout id)).run step s = (some r, s)) (hid : id ≠ "")
    (hst : r.status = .progressing) (hlast : isLastStage r) (actor : String) (now configNow : ℤ) :
    (promoteStage id actor now configNow).run step s =
      (promoteLast r .completed actor now configNow).run step s := by
  have hnext : attemptRolloutTransition r.status .promote (isLastStage r) = some .completed := by
    rw [hst, hlast]
    rfl
  rw [promoteStage, withRollout, if_neg hid, run_bind, hload]
  dsimp only
  rw [hnext]
  dsimp only
  rw [if_pos hlast]

lemma run_activate_approved (hfind : s.configVersions.find versionId = some v)
    (hst : v.status = .approved) (activator : String) (now : ℤ) :
    (activate versionId activator now).run updateFails s =
      ({ record := activated activator now v }, s.switchTo versionId activator now v) := by
  have hput := activateConfig_switch hfind (.inl hst) activator now
  have hnow : (s.switchTo versionId activator now v).configVersions.find versionId =
      some (activated activator now v) := by
    rw [find_switchTo hfind, if_pos rfl]
  have hnext : next v.status .activate = some .active := by rw [hst]; rfl
  simp [activate, reload, updateFails, exec, getConfigVersion, hfind, hnext, hput, hnow]

theorem promote_halfPersisted (hinv : RolloutInv s) (hp : Pointed s)
    (hinit : s.initialized) (hid : id ≠ "") (hr : s.rollouts.find id = some r)
    (hst : r.status = .progressing) (hlast : isLastStage r)
    (hv : s.configVersions.find r.targetVersionId = some v) (happroved : v.status = .approved)
    (actor : String) (now configNow : ℤ) :
    HalfPersisted ((promoteStage id actor now configNow).run updateFails s).2 id r := by
  have hload : (ask (.getRollout id)).run updateFails s = (some r, s) := by
    show (s.rollouts.find id, s) = _
    rw [hr]
  rw [run_promoteStage_last hload hid hst hlast, promoteLast, run_bind,
    run_activate_approved hv happroved]
  exact ⟨hinit, hid, hr, hst, hlast, hp.ne_empty hv, rfl, hp.switchTo hv actor configNow,
    ⟨hinv.records, hinv.unique⟩⟩

/-! ## promoting again -/

lemma run_activate_active (hfind : s.configVersions.find versionId = some v)
    (hst : v.status = .active) (activator : String) (now : ℤ) :
    ((activate versionId activator now).run exec s).1.errorCode = "FAILED_PRECONDITION" ∧
      ((activate versionId activator now).run exec s).2 = s := by
  have hnext : next v.status .activate ≠ some .active := by rw [hst]; decide
  simp [activate, exec, getConfigVersion, hfind, hnext]

lemma HalfPersisted.promote_fails (h : HalfPersisted s id r) (actor : String)
    (now configNow : ℤ) : ((promoteStage id actor now configNow).run exec s).2.rollouts.find id =
      some { r with status := .failed, completedAt := now } := by
  have hkey : r.rolloutId = id := key_of_find h.stored
  obtain ⟨v, hv, hactive⟩ := h.pointed.pointer (by rw [h.active]; exact h.target)
  rw [h.active] at hv
  obtain ⟨hcode, hsame⟩ := run_activate_active hv hactive actor configNow
  have hfail : attemptRolloutTransition r.status .fail false = some .failed := by
    rw [h.progressing]
    rfl
  have hload : (ask (.getRollout id)).run exec s = (some r, s) := by
    show (s.rollouts.find id, s) = _
    rw [h.stored]
  have hput : s.updateRollout { r with status := .failed, completedAt := now } =
      (true, s.putRollout { r with status := .failed, completedAt := now }) :=
    updateRollout_ended h.working (hkey.symm ▸ h.stored) rfl
  rw [run_promoteStage_last hload h.named h.progressing h.last, promoteLast, run_bind,
    if_pos (by rw [hcode]; decide), hfail, hsame]
  show (s.updateRollout { r with status := .failed, completedAt := now }).2.rollouts.find id = _
  rw [hput, putRollout_find, if_pos hkey]

lemma HalfPersisted.promote_waits (h : HalfPersisted s id r) (rolloutId actor : String)
    (now configNow : ℤ) :
    ∃ q, ((promoteStage rolloutId actor now configNow).run exec s).2.rollouts.find id = some q ∧
      q.status ≠ .completed := by
  by_cases hid : rolloutId = id
  · subst hid
    exact ⟨_, h.promote_fails actor now configNow, (by decide : RolloutStatus.failed ≠ .completed)⟩
  · have hframed := run_framed (Held.start h.rollouts) h.pointed
      (wp_promoteStage rolloutId actor now configNow)
    exact ⟨r, hframed.others id r (Ne.symm hid) h.stored, by rw [h.progressing]; decide⟩

/-! ## the ticker's next round -/

/-- the rollout is on the ticker's page, and the rollbacks before its turn leave its target active -/
def Reconciles (s : MemoryPersistentStore) (r : RolloutRecord) (readings : String → Readings)
    (wallNowMs : ℤ) : Prop :=
  r ∈ s.listRollouts tickQuery ∧ activeAfter s readings wallNowMs
      ((s.listRollouts tickQuery).takeWhile (·.rolloutId ≠ r.rolloutId)) = r.targetVersionId

lemma stored_of_listed {q : RolloutQuery} {r : RolloutRecord} (h : r ∈ s.listRollouts q) :
    s.rollouts.find r.rolloutId = some r :=
  find_eq_some_iff.2 ⟨mem_rows_of_listRollouts h, rfl⟩

section
variable (h : HalfPersisted s id r) (c : ControllerDeps) (readings : String → Readings)
  (wallNowMs : ℤ)
include h

lemma HalfPersisted.tick_unlisted (hr : r ∉ s.listRollouts tickQuery) :
    ((onTick c readings wallNowMs).run exec s).2.rollouts.find id = some r := by
  have hticked := tickLoop_ticked c readings wallNowMs (s.listRollouts tickQuery) s h.rollouts
    h.pointed (nodup_listRollouts _ s) fun q hq => stored_of_listed hq
  refine hticked.others id r (fun hmem => ?_) h.stored
  obtain ⟨q, hq, rfl⟩ := mem_map.1 hmem
  have hstored := stored_of_listed hq
  rw [h.stored] at hstored
  cases hstored
  exact hr hq

lemma HalfPersisted.tick_listed {before after : List RolloutRecord}
    (hlist : s.listRollouts tickQuery = before ++ r :: after) :
    ∃ q, ((onTick c readings wallNowMs).run exec s).2.rollouts.find id = some q ∧
      (q.status = .completed ↔ activeAfter s readings wallNowMs before = r.targetVersionId) := by
  have hkey : r.rolloutId = id := key_of_find h.stored
  subst hkey
  have hnodup := nodup_listRollouts tickQuery s
  have hstored : ∀ q ∈ before ++ r :: after, s.rollouts.find q.rolloutId = some q :=
    fun q hq => stored_of_listed (hlist ▸ hq)
  rw [hlist, map_append, nodup_append, map_cons, nodup_cons] at hnodup
  obtain ⟨hbefore, ⟨hr, hafter⟩, hdisjoint⟩ := hnodup
  -- the turns before it
  have h1 := tickLoop_ticked c readings wallNowMs before s h.rollouts h.pointed hbefore
    (fun q hq => hstored q (mem_append_left _ hq))
  set s1 := ((tickLoop c readings wallNowMs before).run exec s).2
  have hr1 : s1.rollouts.find r.rolloutId = some r :=
    h1.others _ r (hdisjoint _ · _ mem_cons_self rfl) h.stored
  -- its own turn
  have h2 := tickOne_ticked h1.inv h1.pointed hr1 c readings wallNowMs
  have hown : ∃ q, ((tickOne c readings wallNowMs r).run exec s1).2.rollouts.find r.rolloutId =
      some q ∧ (q.status = .completed ↔
        activeAfter s readings wallNowMs before = r.targetVersionId) := by
    rw [← h1.active, ← activeConfig_iff h1.pointed h.target]
    by_cases hact : s1.getActiveConfig.map (·.versionId) = some r.targetVersionId
    · rw [tickOne_completes h.progressing (h1.working.trans h.working) hr1 hact, putRollout_find,
        if_pos rfl]
      exact ⟨_, rfl, fun _ => hact, fun _ => rfl⟩
    · obtain ⟨q, hq, hst⟩ := tickOne_waits h.progressing hr1 hact c readings wallNowMs
      exact ⟨q, hq, fun e => absurd e hst, fun e => absurd e hact⟩
  set s2 := ((tickOne c readings wallNowMs r).run exec s1).2
  -- the turns after it
  have h3 := tickLoop_ticked c readings wallNowMs after s2 h2.inv h2.pointed hafter (by
    intro q hq
    have hq' : q.rolloutId ∈ after.map (·.rolloutId) := mem_map_of_mem hq
    have hq1 : s1.rollouts.find q.rolloutId = some q :=
      h1.others _ q (hdisjoint _ · _ (mem_cons_of_mem _ hq') rfl)
        (hstored q (mem_append_right _ (mem_cons_of_mem _ hq)))
    refine h2.others _ q (fun hmem => ?_) hq1
    have e : q.rolloutId = r.rolloutId := by simpa using hmem
    exact hr (e ▸ hq'))
  have hrun : ((onTick c readings wallNowMs).run exec s).2 =
      ((tickLoop c readings wallNowMs after).run exec s2).2 := by
    show ((tickLoop c readings wallNowMs (s.listRollouts tickQuery)).run exec s).2 = _
    rw [hlist, tickLoop_append, tickLoop, run_bind]
  obtain ⟨q, hq, hiff⟩ := hown
  rw [hrun]
  exact ⟨q, h3.others _ q hr hq, hiff⟩

lemma HalfPersisted.tick_completes_iff :
    ∃ q, ((onTick c readings wallNowMs).run exec s).2.rollouts.find id = some q ∧
      (q.status = .completed ↔ Reconciles s r readings wallNowMs) := by
  by_cases hr : r ∈ s.listRollouts tickQuery
  · obtain ⟨before, after, hlist⟩ := append_of_mem hr
    have hnodup := nodup_listRollouts tickQuery s
    have htake : (s.listRollouts tickQuery).takeWhile (·.rolloutId ≠ r.rolloutId) = before := by
      rw [hlist, map_append, nodup_append] at hnodup
      rw [hlist, takeWhile_append_of_pos, takeWhile_cons_of_neg (by simp), append_nil]
      intro q hq
      exact decide_eq_true (fun e =>
        hnodup.2.2 _ (mem_map_of_mem hq) _ mem_cons_self e)
    obtain ⟨q, hq, hiff⟩ := h.tick_listed c readings wallNowMs hlist
    refine ⟨q, hq, ?_⟩
    rw [hiff, Reconciles, htake]
    exact ⟨fun e => ⟨hr, e⟩, fun hrec => hrec.2⟩
  · refine ⟨r, h.tick_unlisted c readings wallNowMs hr, ?_⟩
    rw [h.progressing]
    exact ⟨nofun, fun hrec => absurd hrec.1 hr⟩

end

end

/-! ## recovery -/

inductive RecoveryCall where
  | promote (rolloutId actor : String) (now configNow : ℤ)
  | tick (readings : String → Readings) (wallNowMs : ℤ)

def RecoveryCall.request : RecoveryCall → ControlRequest
  | .promote rolloutId actor now configNow => .promote rolloutId actor now configNow
  | .tick readings wallNowMs => .tick readings wallNowMs

/-- along the calls the rollout is never failed, and it is completed from the first call on -/
def Recovers (d : Deps) (c : ControllerDeps) (s : MemoryPersistentStore) (rolloutId : String)
    (calls : List RecoveryCall) : Prop :=
  ∀ done, done <+: calls →
    ∃ q, (Run.exec (perform d c) s (done.map (·.request))).rollouts.find rolloutId = some q ∧
      q.status ≠ .failed ∧ (done ≠ [] → q.status = .completed)

def TickedFirst (s : MemoryPersistentStore) (r : RolloutRecord) : List RecoveryCall → Prop
  | [] => True
  | .promote .. :: _ => False
  | .tick readings wallNowMs :: _ => Reconciles s r readings wallNowMs

/-- after a half persisted promotion, calls recover the rollout exactly when there is none or the
first of them is a tick that reconciles it -/
theorem recovery_iff (d : Deps) (c : ControllerDeps) {s : MemoryPersistentStore} {id : String}
    {r : RolloutRecord} (h : HalfPersisted s id r) (calls : List RecoveryCall) :
    Recovers d c s id calls ↔ TickedFirst s r calls := by
  have hstart : r.status ≠ .failed := by rw [h.progressing]; decide
  cases calls with
  | nil =>
    refine ⟨fun _ => trivial, fun _ done hdone => ?_⟩
    obtain rfl := prefix_nil.1 hdone
    exact ⟨r, h.stored, hstart, fun hne => absurd rfl hne⟩
  | cons call rest =>
    have hfirst : ∃ q, (perform d c s call.request).rollouts.find id = some q ∧
        (q.status = .completed ↔ TickedFirst s r (call :: rest)) := by
      cases call with
      | promote rolloutId actor now configNow =>
        obtain ⟨q, hq, hst⟩ := h.promote_waits rolloutId actor now configNow
        refine ⟨q, ?_, fun e => absurd e hst, fun hf => hf.elim⟩
        rw [perform, RecoveryCall.request, ControlRequest.prog, discard, run_bind, run_pure]
        exact hq
      | tick readings wallNowMs => exact h.tick_completes_iff c readings wallNowMs
    obtain ⟨q, hq, hiff⟩ := hfirst
    rw [← hiff]
    constructor
    · intro hrec
      obtain ⟨q', hq', -, hdone⟩ := hrec [call] ⟨rest, rfl⟩
      obtain rfl : q = q' := Option.some.inj (hq.symm.trans hq')
      exact hdone (cons_ne_nil _ _)
    · intro hcompleted done hdone
      cases done with
      | nil => exact ⟨r, h.stored, hstart, fun hne => absurd rfl hne⟩
      | cons a done =>
        obtain ⟨rfl, -⟩ := cons_prefix_cons.1 hdone
        have hend := ended_run d c (perform_held d c h.rollouts a.request).1
          (done.map (·.request)) hq (by rw [hcompleted]; rfl)
        exact ⟨q, hend, by rw [hcompleted]; decide, fun _ => hcompleted⟩

/-- the only stage of `R` is promoted while the store does not take updates of rollouts -/
def halfDone : MemoryPersistentStore :=
  ((promoteStage "R" "bob" 4 4).run updateFails rolloutUnderWay).2

theorem recovery_by_tick :
    Recovers acceptAll {} halfDone "R" [.tick (fun _ => {}) 5, .promote "R" "bob" 6 6] :=
  (recovery_iff acceptAll {} (promote_halfPersisted
    (rolloutInv_run acceptAll {} (rolloutInv_start true empty "") _)
    (pointed_run acceptAll {} true _) rfl (by decide) rfl rfl rfl rfl rfl "bob" 4 4) _).2
    ⟨mem_cons_self, rfl⟩

/-- the operator's retry fails the rollout although its target is live -/
theorem retry_fails_rollout :
    (∃ r, halfDone.rollouts.find "R" = some r ∧ r.status = .progressing ∧
        halfDone.activeConfigVersionId = r.targetVersionId) ∧
      ∃ q, (perform acceptAll {} halfDone (.promote "R" "bob" 5 5)).rollouts.find "R" = some q ∧
        q.status = .failed :=
  ⟨⟨_, rfl, rfl, rfl⟩, ⟨_, rfl, rfl⟩⟩

end AegisGate.ControlPlane
