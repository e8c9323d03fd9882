import AegisGate.ControlPlane.ConfigLifecycle
import AegisGate.ControlPlane.RolloutLifecycle

/-!
# What rollouts do to the active config version

A rollout remembers the version that was active when it was started.  Aborting the rollout, and
rolling it back automatically after a pause, restores that version.

* `pointed_run`  the active id and the active status agree in every run of config and
  rollout requests;
* `run_restorePrevious`  a restore switches to the remembered version exactly when that version is
  superseded.

The restore does not ask which version is active: `rollout_undoes_other_activation` shows it replace a
version that was activated on its own while the rollout was under way.
-/

namespace AegisGate.ControlPlane

open MemoryPersistentStore Proc

/-! ## the active id in runs with rollouts -/

section
variable {s s' : MemoryPersistentStore}

structure SameConfig (s s' : MemoryPersistentStore) : Prop where
  versions : s'.configVersions = s.configVersions
  active : s'.activeConfigVersionId = s.activeConfigVersionId

lemma SameConfig.trans {s'' : MemoryPersistentStore} (h : SameConfig s s')
    (h' : SameConfig s' s'') : SameConfig s s'' :=
  ⟨h'.versions.trans h.versions, h'.active.trans h.active⟩

lemma Pointed.congr (h : Pointed s) (e : SameConfig s s') : Pointed s' where
  named := by rw [e.versions]; exact h.named
  active := by rw [e.versions, e.active]; exact h.active
  pointer := by rw [e.versions, e.active]; exact h.pointer

lemma insertRollout_config (s : MemoryPersistentStore) (r : RolloutRecord) :
    SameConfig s (s.insertRollout r).2 := by
  rcases insertRollout_cases r s with e | ⟨-, -, -, -, e⟩ <;> rw [e] <;> exact ⟨rfl, rfl⟩

lemma updateRollout_config (s : MemoryPersistentStore) (r : RolloutRecord) :
    SameConfig s (s.updateRollout r).2 := by
  rcases updateRollout_cases r s with e | ⟨-, -, -, e⟩ <;> rw [e] <;> exact ⟨rfl, rfl⟩

lemma Pointed.call (h : Pointed s) {on : String → Prop} {past : Past} {c : StoreCall}
    (hc : ControllerCall on past c) : Pointed (exec c s).2 := by
  cases c with
  | updateConfigStatus versionId st actor comment ms | insertConfigVersion r => exact hc.elim
  | activateConfig versionId activator ms => exact h.activateConfig versionId activator ms
  | insertRollout r => exact h.congr (insertRollout_config s r)
  | updateRollout r => exact h.congr (updateRollout_config s r)
  | _ => exact h

lemma Pointed.perform (d : Deps) (c : ControllerDeps) (h : Pointed s) (r : ControlRequest) :
    Pointed (perform d c s r) := by
  by_cases hr : ∃ q, r = .config q
  · obtain ⟨q, rfl⟩ := hr
    have e : ControlPlane.perform d c s (.config q) = atomically d s q := by
      simp [ControlPlane.perform, ControlRequest.prog, discard, atomically]
    rw [e]
    exact h.step q
  · have hcall : ∀ past s c, Pointed s → ControllerCall (fun _ => True) past c →
        Admitted c (exec c s).1 ∧ Pointed (exec c s).2 :=
      fun past s c hs hc => ⟨exec_admitted c s, hs.call hc⟩
    obtain ⟨-, hp, -⟩ := run_wp (J := fun _ s => Pointed s) hcall (r.prog d c) [] s h
      (wp_controller d c (fun q hq => hr ⟨q, hq⟩) [])
    exact hp

end

theorem pointed_run (d : Deps) (c : ControllerDeps) (initialized : Bool)
    (calls : List ControlRequest) : Pointed (Run.exec (perform d c) { initialized } calls) :=
  Run.exec_inv (P := fun _ => True) (I := Pointed) (fun _ r _ hs => hs.perform d c r) calls _
    (Pointed.empty initialized) fun _ _ => trivial

/-- after any requests on configs and rollouts, the active id names the active version -/
theorem active_version_iff (d : Deps) (c : ControllerDeps) (initialized : Bool)
    (calls : List ControlRequest) (id : String) :
    ((Run.exec (perform d c) { initialized } calls).configVersions.find id).map (·.status) =
        some .active ↔
      id ≠ "" ∧ (Run.exec (perform d c) { initialized } calls).activeConfigVersionId = id := by
  have h := pointed_run d c initialized calls
  constructor
  · intro hactive
    obtain ⟨v, hv, hst⟩ := Option.map_eq_some_iff.1 hactive
    refine ⟨?_, h.active id v hv hst⟩
    rintro rfl
    rw [h.named] at hv
    cases hv
  · rintro ⟨hne, rfl⟩
    obtain ⟨v, hv, hst⟩ := h.pointer hne
    rw [hv, Option.map_some, hst]

/-! ## one restore -/

section
variable {s : MemoryPersistentStore} {r : RolloutRecord} {due : RolloutRecord → Prop}
  {s' : MemoryPersistentStore}

theorem run_restorePrevious (r : RolloutRecord) (actor : String) (now : ℤ)
    (s : MemoryPersistentStore) : (∃ v, r.previousActiveVersionId ≠ "" ∧
        s.configVersions.find r.previousActiveVersionId = some v ∧ v.status = .superseded ∧
        ((restorePrevious r actor now).run exec s).2 =
          s.switchTo r.previousActiveVersionId actor now v) ∨ (r.previousActiveVersionId = "" ∨
          ∀ v, s.configVersions.find r.previousActiveVersionId = some v → v.status ≠ .superseded) ∧
        ((restorePrevious r actor now).run exec s).2 = s := by
  unfold restorePrevious
  split
  · rename_i hempty
    exact .inr ⟨.inl hempty, rfl⟩
  · rename_i hne
    rw [run_bind, run_pure]
    rcases run_rollback r.previousActiveVersionId actor false now s with
      ⟨-, v, hfind, hst, e⟩ | ⟨hno, e⟩
    · exact .inl ⟨v, hne, hfind, hst, e⟩
    · exact .inr ⟨.inr (hno.resolve_left Bool.false_ne_true), e⟩

/-- the remembered version is superseded, and the active one is another -/
def WouldRestore (s : MemoryPersistentStore) (r : RolloutRecord) : Prop :=
  r.previousActiveVersionId ≠ "" ∧ r.previousActiveVersionId ≠ s.activeConfigVersionId ∧
    ∃ v, s.configVersions.find r.previousActiveVersionId = some v ∧ v.status = .superseded

lemma restorePrevious_active_iff (r : RolloutRecord) (actor : String) (now : ℤ)
    (s : MemoryPersistentStore) :
    (((restorePrevious r actor now).run exec s).2.activeConfigVersionId ≠
        s.activeConfigVersionId ↔ WouldRestore s r) ∧
      (((restorePrevious r actor now).run exec s).2.activeConfigVersionId ≠
        s.activeConfigVersionId →
          ((restorePrevious r actor now).run exec s).2.activeConfigVersionId =
            r.previousActiveVersionId) := by
  rcases run_restorePrevious r actor now s with ⟨v, hne, hfind, hst, e⟩ | ⟨hno, e⟩
  · rw [e]
    exact ⟨⟨fun hch => ⟨hne, hch, v, hfind, hst⟩, fun h => h.2.1⟩, fun _ => rfl⟩
  · rw [e]
    refine ⟨⟨fun h => absurd rfl h, ?_⟩, fun h => absurd rfl h⟩
    rintro ⟨hne, -, v, hfind, hst⟩
    rcases hno with hno | hno
    · exact absurd hno hne
    · exact absurd hst (hno v hfind)

/-! ## aborting, and rolling back after a pause -/

lemma run_withRollout (rolloutId : String) (k : RolloutRecord → Prog RolloutResult)
    (s : MemoryPersistentStore) : (∃ r, rolloutId ≠ "" ∧ s.rollouts.find rolloutId = some r ∧
        (withRollout rolloutId k).run exec s = (k r).run exec s) ∨
      (rolloutId = "" ∨ s.rollouts.find rolloutId = none) ∧
        ((withRollout rolloutId k).run exec s).2 = s := by
  unfold withRollout
  split
  · rename_i hid
    exact .inr ⟨.inl hid, rfl⟩
  · rename_i hid
    simp only [run_bind, run_op, exec, getRollout]
    cases hfind : s.rollouts.find rolloutId with
    | none => exact .inr ⟨.inr rfl, rfl⟩
    | some r => exact .inl ⟨r, hid, rfl, rfl⟩

lemma run_persist (r : RolloutRecord) (s : MemoryPersistentStore) :
    ((persist r).run exec s).2 = (s.updateRollout r).2 := by
  have e : s.updateRollout r = (ask (.updateRollout r)).run exec s := rfl
  rw [persist, run_bind, e]
  split <;> rfl

lemma updateRollout_ended {r' : RolloutRecord} (hinit : s.initialized)
    (hfind : s.rollouts.find r'.rolloutId = some r) (hend : isActiveStatus r'.status = false) :
    s.updateRollout r' = (true, s.putRollout r') := by
  simp [updateRollout, hinit, hfind, hend]

/-- the rollout an abort restores the config for: under way, in a store that takes the write -/
def AbortRestores (s : MemoryPersistentStore) (rolloutId : String) (r : RolloutRecord) : Prop :=
  rolloutId ≠ "" ∧ s.rollouts.find rolloutId = some r ∧ s.initialized ∧
    (r.status = .progressing ∨ r.status = .paused)

lemma run_abortRollout (rolloutId actor : String) (now configNow : ℤ)
    (s : MemoryPersistentStore) : (∃ r, AbortRestores s rolloutId r ∧
        ((abortRollout rolloutId actor now configNow).run exec s).2 = ((restorePrevious
            { r with status := .aborted, completedAt := now, lastActor := actor } actor
            configNow).run exec (s.putRollout
              { r with status := .aborted, completedAt := now, lastActor := actor })).2) ∨
      (∀ r, ¬ AbortRestores s rolloutId r) ∧
        ((abortRollout rolloutId actor now configNow).run exec s).2.activeConfigVersionId =
          s.activeConfigVersionId := by
  unfold abortRollout
  rcases run_withRollout rolloutId _ s with ⟨r, hid, hfind, e⟩ | ⟨hno, e⟩
  · rw [e]
    cases hnext : attemptRolloutTransition r.status .abort false with
    | none =>
      refine .inr ⟨fun r' h => ?_, rfl⟩
      obtain ⟨-, hfind', -, hst⟩ := h
      rw [hfind] at hfind'
      cases hfind'
      rcases hst with hst | hst <;> rw [hst] at hnext <;> cases hnext
    | some next =>
      have habort : next = .aborted := attempt_eq_some hnext
      subst habort
      have hid' : r.rolloutId = rolloutId := Table.key_of_find hfind
      rw [run_bind]
      cases hinit : s.initialized with
      | false =>
        have hask : ∀ r, (ask (.updateRollout r)).run exec s = (false, s) := by
          intro r
          show s.updateRollout _ = _
          rw [updateRollout, if_pos hinit]
        rw [hask]
        refine .inr ⟨fun r' h => ?_, rfl⟩
        rw [h.2.2.1] at hinit
        cases hinit
      | true =>
        have hask : (ask (.updateRollout
            { r with status := .aborted, completedAt := now, lastActor := actor })).run exec s =
              (true, s.putRollout
                { r with status := .aborted, completedAt := now, lastActor := actor }) :=
          updateRollout_ended hinit (hid' ▸ hfind) rfl
        rw [hask]
        by_cases hlive : r.status = .progressing ∨ r.status = .paused
        · refine .inl ⟨r, ⟨hid, hfind, hinit, hlive⟩, ?_⟩
          rw [if_neg Bool.false_ne_true.symm, if_pos hlive, run_bind]
          rfl
        · refine .inr ⟨fun r' h => ?_, ?_⟩
          · obtain ⟨-, hfind', -, hst⟩ := h
            rw [hfind] at hfind'
            cases hfind'
            exact hlive hst
          · rw [if_neg Bool.false_ne_true.symm, if_neg hlive]
            rfl
  · rw [e]
    refine .inr ⟨fun r' h => ?_, rfl⟩
    rcases hno with hno | hno
    · exact h.1 hno
    · rw [h.2.1] at hno
      cases hno

/-- the rollout an automatic rollback restores the config for: paused, with its grace period over -/
def RollbackRestores (s : MemoryPersistentStore) (rolloutId : String) (readings : Readings)
    (wallNowMs : ℤ) (r : RolloutRecord) : Prop :=
  rolloutId ≠ "" ∧ s.rollouts.find rolloutId = some r ∧ autoRollbackDue readings wallNowMs r

lemma run_evaluateAutoRollback (c : ControllerDeps) (rolloutId : String) (readings : Readings)
    (wallNowMs : ℤ) (s : MemoryPersistentStore) :
    (∃ r, RollbackRestores s rolloutId readings wallNowMs r ∧
        SameConfig ((restorePrevious r c.systemUserId readings.configNow).run exec s).2
          ((evaluateAutoRollback c rolloutId readings wallNowMs).run exec s).2) ∨
      (∀ r, ¬ RollbackRestores s rolloutId readings wallNowMs r) ∧
        ((evaluateAutoRollback c rolloutId readings wallNowMs).run exec s).2 = s := by
  unfold evaluateAutoRollback
  rcases run_withRollout rolloutId _ s with ⟨r, hid, hfind, e⟩ | ⟨hno, e⟩
  · rw [e]
    by_cases hdue : autoRollbackDue readings wallNowMs r
    · refine .inl ⟨r, ⟨hid, hfind, hdue⟩, ?_⟩
      have hnext : attemptRolloutTransition r.status .autoRollback false = some .failed := by
        rw [hdue.1]
        rfl
      rw [if_neg (not_not_intro hdue), hnext]
      rw [run_bind, run_persist]
      exact updateRollout_config _ _
    · rw [if_pos hdue]
      refine .inr ⟨fun r' h => ?_, rfl⟩
      obtain ⟨-, hfind', hdue'⟩ := h
      rw [hfind] at hfind'
      cases hfind'
      exact hdue hdue'
  · rw [e]
    refine .inr ⟨fun r' h => ?_, rfl⟩
    rcases hno with hno | hno
    · exact h.1 hno
    · rw [h.2.1] at hno
      cases hno

/-- from `s` to `s'` the active version changes exactly when a rollout in `due` has a version to
restore, and then to that version -/
def RestoresFor (due : RolloutRecord → Prop) (s s' : MemoryPersistentStore) : Prop :=
  (s'.activeConfigVersionId ≠ s.activeConfigVersionId ↔ ∃ r, due r ∧ WouldRestore s r) ∧
    ∀ r, due r → s'.activeConfigVersionId ≠ s.activeConfigVersionId →
      s'.activeConfigVersionId = r.previousActiveVersionId

lemma RestoresFor.unchanged (hno : ∀ r, ¬ due r)
    (e : s'.activeConfigVersionId = s.activeConfigVersionId) : RestoresFor due s s' :=
  ⟨⟨fun h => absurd e h, fun ⟨r, hdue, _⟩ => absurd hdue (hno r)⟩, fun _ _ h => absurd e h⟩

lemma RestoresFor.restored (hdue : due r) (hone : ∀ r', due r' → r' = r)
    (hiff : s'.activeConfigVersionId ≠ s.activeConfigVersionId ↔ WouldRestore s r)
    (hto : s'.activeConfigVersionId ≠ s.activeConfigVersionId →
      s'.activeConfigVersionId = r.previousActiveVersionId) : RestoresFor due s s' := by
  constructor
  · rw [hiff]
    refine ⟨fun h => ⟨r, hdue, h⟩, ?_⟩
    rintro ⟨r', hdue', h⟩
    exact hone r' hdue' ▸ h
  · intro r' hdue' h
    rw [hone r' hdue']
    exact hto h

end

/-- an abort and an automatic rollback change the active version exactly when the rollout is under
way (or its grace period is over) and the version active at its start is superseded now; it is
active afterwards -/
theorem rollout_restores_iff (c : ControllerDeps) (rolloutId actor : String) (now configNow : ℤ)
    (readings : Readings) (s : MemoryPersistentStore) : RestoresFor (AbortRestores s rolloutId) s
        ((abortRollout rolloutId actor now configNow).run exec s).2 ∧
      RestoresFor (RollbackRestores s rolloutId readings now) s
        ((evaluateAutoRollback c rolloutId readings now).run exec s).2 := by
  constructor
  · rcases run_abortRollout rolloutId actor now configNow s with ⟨r, hdue, e⟩ | ⟨hno, e⟩
    · -- storing the rollout as aborted changes nothing a restore looks at
      obtain ⟨hiff, hto⟩ := restorePrevious_active_iff
        { r with status := .aborted, completedAt := now, lastActor := actor } actor configNow
        (s.putRollout { r with status := .aborted, completedAt := now, lastActor := actor })
      rw [← e] at hiff hto
      exact .restored hdue (fun r' h => Option.some.inj (h.2.1.symm.trans hdue.2.1)) hiff hto
    · exact .unchanged hno e
  · rcases run_evaluateAutoRollback c rolloutId readings now s with ⟨r, hdue, e⟩ | ⟨hno, e⟩
    · obtain ⟨hiff, hto⟩ := restorePrevious_active_iff r c.systemUserId readings.configNow s
      rw [← e.active] at hiff hto
      exact .restored hdue (fun r' h => Option.some.inj (h.2.1.symm.trans hdue.2.1)) hiff hto
    · rw [e]
      exact .unchanged hno rfl

def activatedMeanwhile : MemoryPersistentStore :=
  Run.exec (perform acceptAll {}) { initialized := true }
    [.config (.submit "v: 1" "alice" "" false true 1 "A"), .config (.approve "A" "bob" "" 2),
     .config (.activate "A" "bob" 3),
     .config (.submit "v: 2" "alice" "" false true 4 "B"), .config (.approve "B" "bob" "" 5),
     .create { targetVersionId := "B", stages := [{ name := "full" }], autoRollbackOnPause := true,
               autoRollbackGraceSeconds := 0 } "alice" true "R",
     .start "R" "alice" 6, .pause "R" "alice" "" 7,
     .config (.submit "v: 3" "alice" "" false true 8 "C"), .config (.approve "C" "bob" "" 9),
     .config (.activate "C" "bob" 10)]

theorem rollout_undoes_other_activation :
    (∃ r, activatedMeanwhile.rollouts.find "R" = some r ∧ r.targetVersionId = "B") ∧
      activatedMeanwhile.activeConfigVersionId = "C" ∧
      ((abortRollout "R" "bob" 11 11).run exec activatedMeanwhile).2.activeConfigVersionId = "A" ∧
      ((evaluateAutoRollback {} "R" {} 11).run exec activatedMeanwhile).2.activeConfigVersionId =
        "A" :=
  ⟨⟨_, rfl, rfl⟩, rfl, rfl, rfl⟩

end AegisGate.ControlPlane
