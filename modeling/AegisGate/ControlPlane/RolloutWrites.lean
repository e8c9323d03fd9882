import AegisGate.ControlPlane.RolloutController

/-!
# What the controller writes

Every operation loads a rollout, decides, and writes the whole record back.  Said once for all of
them, and for any answers of the store:

* `known past id`  the rollout as the request has last seen or written it;
* `Rewrites r r'`  the changes that the controller makes to a record;
* `RolloutCall past c`  a request updates a rollout only by a rewrite of the record it knows, and
  inserts only new pending rollouts;
* `wp_request`  every request of the control plane keeps to this.
-/

namespace AegisGate.ControlPlane

open List Proc

abbrev Past := List ((c : StoreCall) × c.Answer)

/-! ## what a request has seen -/

/-- the rollout with this id, as the answer of one call shows it -/
def learns : (c : StoreCall) → c.Answer → String → Option RolloutRecord
  | .getRollout i, answer, id => if i = id then answer else none
  | .listRollouts _, answer, id => answer.find? (·.rolloutId = id)
  | .updateRollout r, answer, id => if answer = true ∧ r.rolloutId = id then some r else none
  | _, _, _ => none

def known : Past → String → Option RolloutRecord
  | [], _ => none
  | ⟨c, answer⟩ :: past, id => (learns c answer id).or (known past id)

/-- nothing new about the rollouts with other ids -/
def Touches (id : String) (past past' : Past) : Prop := ∀ i ≠ id, known past' i = known past i

lemma Touches.refl (id : String) (past : Past) : Touches id past past := fun _ _ => rfl

lemma Touches.trans {id : String} {past1 past2 past3 : Past} (h1 : Touches id past1 past2)
    (h2 : Touches id past2 past3) : Touches id past1 past3 :=
  fun i hi => (h2 i hi).trans (h1 i hi)

lemma touches_update {r : RolloutRecord} {id : String} (h : r.rolloutId = id) (stored : Bool)
    (past : Past) : Touches id past (⟨.updateRollout r, stored⟩ :: past) := by
  subst h
  intro i hi
  simp [known, learns, Ne.symm hi]

/-- answers that the store can give: a record under its own id, a listing with each id once -/
def Admitted : (c : StoreCall) → c.Answer → Prop
  | .getRollout i, answer => ∀ r, answer = some r → r.rolloutId = i
  | .listRollouts _, answer => (answer.map (·.rolloutId)).Nodup
  | _, _ => True

lemma nodup_listRollouts (q : RolloutQuery) (s : MemoryPersistentStore) :
    ((s.listRollouts q).map (·.rolloutId)).Nodup := by
  have hrows : ((s.rollouts.rows.filter
      (q.statuses.isEmpty || ·.status ∈ q.statuses)).map (·.rolloutId)).Nodup :=
    s.rollouts.nodup.sublist (filter_sublist.map _)
  have hsorted := (((perm_insertionSort (fun a b => ¬ MemoryPersistentStore.startedLater b a)
    _).map (·.rolloutId)).nodup_iff).2 hrows
  refine hsorted.sublist (List.Sublist.map _ ((take_sublist _ _).trans ?_))
  split
  · exact List.Sublist.refl _
  · exact (drop_sublist _ _).trans (dropWhile_sublist _)

lemma exec_admitted (c : StoreCall) (s : MemoryPersistentStore) : Admitted c (exec c s).1 := by
  cases c with
  | getRollout i => intro r hr; exact Table.key_of_find hr
  | listRollouts q => exact nodup_listRollouts q s
  | _ => trivial

/-! ## the rewrites -/

inductive Rewrites (r : RolloutRecord) : RolloutRecord → Prop
  | start (h : r.status = .pending) (now : ℤ) (previous actor : String) :
      Rewrites r { r with
        status := .progressing, startedAt := now, stageStartedAt := now
        previousActiveVersionId := previous, lastActor := actor }
  | advance (h : r.status = .progressing) (hlast : isLastStage r = false) (now : ℤ)
      (actor : String) :
      Rewrites r { r with
        status := .progressing, currentStageIndex := r.currentStageIndex + 1
        stageStartedAt := now, lastActor := actor }
  | complete (h : r.status = .progressing) (now : ℤ) (actor : String) :
      Rewrites r { r with status := .completed, completedAt := now, lastActor := actor }
  | pause (h : r.status = .progressing) (now : ℤ) {reason : PauseReason}
      (hreason : reason ≠ .unspecified) (detail actor : String) :
      Rewrites r { r with
        status := .paused, pausedAt := now, pauseReason := reason, pauseDetail := detail
        lastActor := actor }
  | resume (h : r.status = .paused) (now : ℤ) (actor : String) :
      Rewrites r { r with
        status := .progressing, pauseReason := .unspecified, pauseDetail := ""
        stageStartedAt := now, lastActor := actor }
  | abort (h : isActiveStatus r.status) (now : ℤ) (actor : String) :
      Rewrites r { r with status := .aborted, completedAt := now, lastActor := actor }
  | fail (h : isActiveStatus r.status) (now : ℤ) (reason : PauseReason) :
      Rewrites r { r with status := .failed, pauseReason := reason, completedAt := now }

namespace Rewrites

variable {r r' : RolloutRecord}

lemma active (h : Rewrites r r') : isActiveStatus r.status := by
  cases h with
  | start h | advance h | complete h | pause h | resume h => rw [h]; rfl
  | abort h | fail h => exact h

end Rewrites

lemma refuseSpec_stages {spec : RolloutSpec} {creator : String}
    (h : refuseSpec spec creator = none) : spec.stages ≠ [] := by
  intro hnil
  unfold refuseSpec at h
  split at h <;> cases h

lemma breach_reason {ap : AutoPausePolicy} {target baseline : VersionMetrics}
    {reason : PauseReason} {detail : String} (h : breach ap target baseline = some (reason, detail)) :
    reason ≠ .unspecified := by
  unfold breach at h
  dsimp only at h
  split at h
  · cases h; decide
  · split at h
    · cases h; decide
    · split at h
      · cases h; decide
      · split at h
        · cases h; decide
        · cases h

lemma observedBreach_reason {d : ControllerDeps} {readings : Readings} {wallNowMs : ℤ}
    {r : RolloutRecord} {reason : PauseReason} {detail : String}
    (h : observedBreach d readings wallNowMs r = some (reason, detail)) :
    reason ≠ .unspecified := by
  unfold observedBreach at h
  split at h
  · cases h
  split at h
  · cases h
  split at h
  · cases h
  split at h
  · cases h
  · dsimp only at h
    split at h
    · cases h
    · exact breach_reason h

/-! ## the calls a request makes -/

def RolloutCall (past : Past) : StoreCall → Prop
  | .updateRollout r' => ∃ r, known past r'.rolloutId = some r ∧ Rewrites r r'
  | .insertRollout r => ∃ spec creator id, spec.stages ≠ [] ∧ r = created spec creator id
  | _ => True

/-- the controller's operations write config versions through activations only, and update the
rollouts with the ids `on` -/
def ControllerCall (on : String → Prop) (past : Past) : StoreCall → Prop
  | .updateRollout r' => on r'.rolloutId ∧ ∃ r, known past r'.rolloutId = some r ∧ Rewrites r r'
  | .insertRollout r => ∃ spec creator id, spec.stages ≠ [] ∧ r = created spec creator id
  | .updateConfigStatus .. | .insertConfigVersion _ => False
  | _ => True

lemma ControllerCall.rolloutCall {on : String → Prop} {past : Past} {c : StoreCall}
    (h : ControllerCall on past c) : RolloutCall past c := by
  cases c with
  | updateRollout r' => exact h.2
  | insertRollout r => exact h
  | _ => trivial

lemma ControllerCall.mono {on on' : String → Prop} (hon : ∀ id, on id → on' id) {past : Past}
    {c : StoreCall} (h : ControllerCall on past c) : ControllerCall on' past c := by
  cases c with
  | updateRollout r' => exact ⟨hon _ h.1, h.2⟩
  | _ => exact h

/-- the program updates this rollout only, and what is known of the others stays -/
abbrev Touching {α : Type} (id : String) (past : Past) (p : Prog α) : Prop :=
  wp (ControllerCall (· = id)) Admitted past p (fun past' _ => Touches id past past')

section
variable {past : Past} {r : RolloutRecord} {α : Type} {on : String → Prop} {p : Prog α}
  (d : ControllerDeps) (rolloutId actor : String) (readings : String → Readings)
  (now wallNowMs configNow : ℤ)

lemma wp_config
    (h : CallsOnly ConfigCall past p) : wp RolloutCall Admitted past p (fun _ _ => True) := by
  refine wp_frame (F := fun _ => True) ?_ (fun _ _ _ _ => trivial) p past trivial h
  intro past' c _ hc
  refine ⟨?_, fun _ _ => ⟨trivial, trivial⟩⟩
  cases c with
  | insertRollout r | updateRollout r => exact hc.elim
  | _ => trivial

lemma wp_activation
    (h : CallsOnly ActivationCall past p) :
    wp (ControllerCall on) Admitted past p (fun past' _ => known past' = known past) := by
  refine wp_frame (F := fun past' => known past' = known past) ?_ (fun _ _ hF _ => hF) p past
    rfl h
  intro past' c hF hc
  cases c with
  | getConfigVersion v | listConfigVersions q | getActiveConfig =>
    exact ⟨trivial, fun _ _ => ⟨trivial, hF⟩⟩
  | activateConfig v activator ms => exact ⟨trivial, fun _ _ => ⟨trivial, hF⟩⟩
  | _ => exact hc.elim

lemma wp_persist {r' : RolloutRecord} (hknown : known past r'.rolloutId = some r)
    (hr : Rewrites r r') : Touching r'.rolloutId past (persist r') := by
  simp only [persist, wp_bind, wp_op]
  refine ⟨⟨rfl, r, hknown, hr⟩, fun stored _ => ?_⟩
  split <;> exact touches_update (by rfl) stored past

lemma wp_withRollout {rolloutId : String} {k : RolloutRecord → Prog RolloutResult}
    (hk : ∀ r past', known past' r.rolloutId = some r → Touching r.rolloutId past' (k r)) :
    Touching rolloutId past (withRollout rolloutId k) := by
  unfold withRollout
  split
  · exact Touches.refl _ _
  · refine ⟨trivial, fun answer hanswer => ?_⟩
    have hpast : Touches rolloutId past (⟨.getRollout rolloutId, answer⟩ :: past) := by
      intro i hi
      simp [known, learns, Ne.symm hi]
    cases answer with
    | none => exact hpast
    | some r =>
      have hid : r.rolloutId = rolloutId := hanswer r rfl
      subst hid
      have hknown : known (⟨.getRollout r.rolloutId, some r⟩ :: past) r.rolloutId = some r := by
        simp [known, learns]
      exact wp_mono (fun past' a h => hpast.trans h) (hk r _ hknown)

/-! ## the operations -/

lemma wp_createRollout (spec : RolloutSpec) (creator : String) (quotaAllowed : Bool)
    (rolloutId : String) : wp (ControllerCall (fun _ => True)) Admitted past
      (createRollout spec creator quotaAllowed rolloutId) (fun _ _ => True) := by
  unfold createRollout
  split
  · trivial
  · rename_i hspec
    split
    · trivial
    · simp only [wp_bind, wp_op]
      refine ⟨trivial, fun version _ => ?_⟩
      split
      · trivial
      split
      · trivial
      · simp only [wp_bind, wp_op]
        refine ⟨trivial, fun existing _ => ?_⟩
        split
        · trivial
        · simp only [wp_bind, wp_op]
          refine ⟨⟨spec, creator, rolloutId, refuseSpec_stages hspec, rfl⟩, fun stored _ => ?_⟩
          split <;> trivial

lemma wp_startRollout : Touching rolloutId past (startRollout rolloutId actor now) := by
  refine wp_withRollout fun r past' hknown => ?_
  split
  · exact Touches.refl _ _
  · rename_i next hnext
    obtain ⟨hst, rfl⟩ := attempt_eq_some hnext
    refine ⟨trivial, fun active _ => ?_⟩
    exact wp_persist hknown (.start hst now _ actor)

lemma wp_promoteLast (hknown : known past r.rolloutId = some r) (hst : r.status = .progressing)
    (actor : String) (now configNow : ℤ) :
    Touching r.rolloutId past (promoteLast r .completed actor now configNow) := by
  unfold Touching promoteLast
  rw [wp_bind]
  refine wp_mono (fun past' activation heq => ?_) (wp_activation (wp_activate _ _ _))
  have hknown' : known past' r.rolloutId = some r := by rw [heq]; exact hknown
  have htouch : Touches r.rolloutId past past' := fun i _ => by rw [heq]
  split
  · split
    · exact htouch
    · rename_i next hnext
      have hfail : next = .failed := attempt_eq_some hnext
      subst hfail
      refine ⟨⟨rfl, r, hknown', .fail (attempt_source_active hnext) now r.pauseReason⟩,
        fun stored _ => ?_⟩
      exact htouch.trans (touches_update (by rfl) stored past')
  · simp only [wp_bind, wp_op]
    refine ⟨⟨rfl, r, hknown', .complete hst now actor⟩, fun stored _ => ?_⟩
    split <;> exact htouch.trans (touches_update (by rfl) stored past')

lemma wp_promoteStage : Touching rolloutId past (promoteStage rolloutId actor now configNow) := by
  refine wp_withRollout fun r past' hknown => ?_
  split
  · exact Touches.refl _ _
  · rename_i next hnext
    obtain ⟨hst, rfl⟩ := attempt_eq_some hnext
    split
    · exact wp_promoteLast hknown hst actor now configNow
    · rename_i hlast
      exact wp_persist hknown (.advance hst (eq_false_of_ne_true hlast) now actor)

lemma wp_pauseRollout (comment : String) (now : ℤ) :
    Touching rolloutId past (pauseRollout rolloutId actor comment now) := by
  refine wp_withRollout fun r past' hknown => ?_
  split
  · exact Touches.refl _ _
  · rename_i next hnext
    obtain ⟨hst, rfl⟩ := attempt_eq_some hnext
    exact wp_persist hknown (.pause hst now (by decide) comment actor)

lemma wp_resumeRollout : Touching rolloutId past (resumeRollout rolloutId actor now) := by
  refine wp_withRollout fun r past' hknown => ?_
  split
  · exact Touches.refl _ _
  · rename_i next hnext
    obtain ⟨hst, rfl⟩ := attempt_eq_some hnext
    exact wp_persist hknown (.resume hst now actor)

lemma wp_restorePrevious (r : RolloutRecord) (actor : String) (configNow : ℤ) :
    wp (ControllerCall on) Admitted past (restorePrevious r actor configNow)
      (fun past' _ => known past' = known past) := by
  unfold restorePrevious
  split
  · rfl
  · rw [wp_bind]
    exact wp_activation (wp_rollback _ _ _ _)

lemma wp_abortRollout : Touching rolloutId past (abortRollout rolloutId actor now configNow) := by
  refine wp_withRollout fun r past' hknown => ?_
  split
  · exact Touches.refl _ _
  · rename_i next hnext
    have habort : next = .aborted := attempt_eq_some hnext
    subst habort
    simp only [wp_bind, wp_op]
    refine ⟨⟨rfl, r, hknown, .abort (attempt_source_active hnext) now actor⟩, fun stored _ => ?_⟩
    split
    · exact touches_update (by rfl) stored past'
    split
    · rw [wp_bind]
      refine wp_mono (fun past'' _ heq => ?_) (wp_restorePrevious _ actor configNow)
      intro i hi
      rw [heq]
      exact touches_update (by rfl) stored past' i hi
    · exact touches_update (by rfl) stored past'

lemma wp_evaluateStage (readings : Readings) (wallNowMs : ℤ) :
    Touching rolloutId past (evaluateStage d rolloutId readings wallNowMs) := by
  refine wp_withRollout fun r past' hknown => ?_
  split
  · exact Touches.refl _ _
  split
  · exact Touches.refl _ _
  · rename_i reason detail hbreach
    split
    · exact Touches.refl _ _
    · rename_i next hnext
      obtain ⟨hst, rfl⟩ := attempt_eq_some hnext
      exact wp_persist hknown
        (.pause hst wallNowMs (observedBreach_reason hbreach) detail r.lastActor)

lemma wp_evaluateAutoRollback (readings : Readings) (wallNowMs : ℤ) :
    Touching rolloutId past (evaluateAutoRollback d rolloutId readings wallNowMs) := by
  refine wp_withRollout fun r past' hknown => ?_
  split
  · exact Touches.refl _ _
  split
  · exact Touches.refl _ _
  · rename_i next hnext
    obtain ⟨hst, rfl⟩ := attempt_eq_some hnext
    rw [Touching, wp_bind]
    refine wp_mono (fun past'' _ heq => ?_) (wp_restorePrevious _ _ _)
    have hknown' : known past'' r.rolloutId = some r := by rw [heq]; exact hknown
    refine wp_mono (fun past3 _ h => ?_)
      (wp_persist hknown' (.fail (attempt_source_active hnext) wallNowMs .autoRollback))
    exact fun i hi => by rw [h i hi, heq]

lemma wp_reconcile (hknown : known past r.rolloutId = some r) (wallNowMs : ℤ) :
    Touching r.rolloutId past (reconcileActivatedRollout r wallNowMs) := by
  unfold reconcileActivatedRollout
  simp only [wp_bind, wp_op]
  refine ⟨trivial, fun active _ => ?_⟩
  split
  · exact Touches.refl _ _
  split
  · exact Touches.refl _ _
  · rename_i next hnext
    obtain ⟨hst, rfl⟩ := attempt_eq_some hnext
    refine ⟨⟨rfl, r, hknown, .complete hst wallNowMs r.lastActor⟩, fun stored _ => ?_⟩
    exact touches_update (by rfl) stored _

lemma wp_tickOne (hknown : known past r.rolloutId = some r) :
    Touching r.rolloutId past (tickOne d readings wallNowMs r) := by
  unfold Touching tickOne
  split
  · rw [wp_bind]
    refine wp_mono (fun past' reconciled htouch => ?_) (wp_reconcile hknown wallNowMs)
    split
    · exact htouch
    · rw [wp_bind]
      exact wp_mono (fun past'' _ h => htouch.trans h) (wp_evaluateStage _ _ _ _)
  · split
    · rw [wp_bind]
      exact wp_evaluateAutoRollback _ _ _ _
    · exact Touches.refl _ _

/-- a listed rollout is still as listed at its turn: the turns before were those of other rollouts
-/
lemma wp_tickLoop (l : List RolloutRecord) : ∀ past, (l.map (·.rolloutId)).Nodup →
    (∀ r ∈ l, known past r.rolloutId = some r) →
    wp (ControllerCall (fun _ => True)) Admitted past (tickLoop d readings wallNowMs l)
      (fun _ _ => True) := by
  induction l with
  | nil => intro past _ _; trivial
  | cons r l ih =>
    intro past hnodup hknown
    rw [map_cons, nodup_cons] at hnodup
    rw [tickLoop, wp_bind]
    refine wp_mono (fun past' _ htouch => ?_) (wp_weaken
      (fun _ _ hc => hc.mono fun _ _ => trivial)
      (wp_tickOne d readings wallNowMs (hknown r mem_cons_self)))
    refine ih past' hnodup.2 fun q hq => ?_
    have hne : q.rolloutId ≠ r.rolloutId := by
      intro e
      exact hnodup.1 (e ▸ mem_map_of_mem hq)
    rw [htouch _ hne]
    exact hknown q (mem_cons_of_mem _ hq)

lemma wp_onTick :
    wp (ControllerCall (fun _ => True)) Admitted past (onTick d readings wallNowMs)
      (fun _ _ => True) := by
  unfold onTick
  refine ⟨trivial, fun rollouts hnodup => ?_⟩
  refine wp_tickLoop d readings wallNowMs rollouts _ hnodup fun r hr => ?_
  have hfind : rollouts.find? (·.rolloutId = r.rolloutId) = some r :=
    Table.find_eq_some_iff (t := ⟨rollouts, hnodup⟩).2 ⟨hr, rfl⟩
  show (rollouts.find? (·.rolloutId = r.rolloutId)).or _ = some r
  rw [hfind]
  rfl

end

lemma wp_discard {ok : Past → StoreCall → Prop} {past : Past} {α : Type} {p : Prog α}
    {Q : Past → α → Prop} (h : wp ok Admitted past p Q) :
    wp ok Admitted past (discard p) (fun _ _ => True) := by
  unfold discard
  rw [wp_bind]
  exact wp_mono (fun _ _ _ => trivial) h

lemma wp_controller (d : Deps) (c : ControllerDeps) {r : ControlRequest}
    (hr : ∀ q, r ≠ .config q) (past : Past) :
    wp (ControllerCall (fun _ => True)) Admitted past (r.prog d c) (fun _ _ => True) := by
  have hdrop : ∀ {id : String} {α : Type} {p : Prog α} {Q : Past → α → Prop},
      wp (ControllerCall (· = id)) Admitted past p Q →
        wp (ControllerCall fun _ => True) Admitted past (discard p) (fun _ _ => True) :=
    fun h => wp_discard (wp_weaken (fun _ _ hc => hc.mono fun _ _ => trivial) h)
  cases r with
  | config q => exact absurd rfl (hr q)
  | create spec creator quotaAllowed rolloutId => exact wp_discard (wp_createRollout _ _ _ _)
  | start rolloutId actor now => exact hdrop (wp_startRollout _ _ _)
  | promote rolloutId actor now configNow => exact hdrop (wp_promoteStage _ _ _ _)
  | pause rolloutId actor comment now => exact hdrop (wp_pauseRollout _ _ _ _)
  | resume rolloutId actor now => exact hdrop (wp_resumeRollout _ _ _)
  | abort rolloutId actor now configNow => exact hdrop (wp_abortRollout _ _ _ _)
  | tick readings wallNowMs => exact wp_onTick _ _ _

theorem wp_request (d : Deps) (c : ControllerDeps) (r : ControlRequest) (past : Past) :
    wp RolloutCall Admitted past (r.prog d c) (fun _ _ => True) := by
  by_cases hr : ∃ q, r = .config q
  · obtain ⟨q, rfl⟩ := hr
    exact wp_discard (wp_config (wp_prog d q))
  · exact wp_weaken (fun _ _ hc => hc.rolloutCall)
      (wp_controller d c (fun q hq => hr ⟨q, hq⟩) past)

end AegisGate.ControlPlane
