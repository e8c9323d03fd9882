import AegisGate.ControlPlane.RolloutWrites

/-!
# The lifecycle of rollouts

Requests of the control plane run one after the other, each on its own, from a store without
rollouts.  The config versions may be anything at the start, and config requests run in between.

* `RecordOk r`  the stage index is one of a stage, and the pause reason fits the status;
* `RolloutInv s`  every stored rollout is so, and a target has at most one rollout that can move;
* `Held s₀ past s`  in the middle of a request that started in `s₀`: the invariant holds, the request
  knows each rollout as it is stored, and what had ended in `s₀` is as it was.

`Held` is kept by every call that `RolloutCall` allows, so by every request (`perform_held`).
-/

namespace AegisGate.ControlPlane

open MemoryPersistentStore List ConfigVersionRecord

structure RecordOk (r : RolloutRecord) : Prop where
  index : 0 ≤ r.currentStageIndex ∧ r.currentStageIndex < r.spec.stages.length
  pending : r.status = .pending → r.pauseReason = .unspecified
  progressing : r.status = .progressing → r.pauseReason = .unspecified
  paused : r.status = .paused → r.pauseReason ≠ .unspecified

structure RolloutInv (s : MemoryPersistentStore) : Prop where
  records : ∀ id r, s.rollouts.find id = some r → RecordOk r
  unique : ∀ id₁ id₂ r₁ r₂, s.rollouts.find id₁ = some r₁ → s.rollouts.find id₂ = some r₂ →
    r₁.targetVersionId = r₂.targetVersionId → isActiveStatus r₁.status →
      isActiveStatus r₂.status → id₁ = id₂

lemma recordOk_created {spec : RolloutSpec} (h : spec.stages ≠ []) (creator id : String) :
    RecordOk (created spec creator id) where
  index := by
    have hpos := length_pos_iff.2 h
    show (0 : ℤ) ≤ 0 ∧ (0 : ℤ) < spec.stages.length
    omega
  pending := fun _ => rfl
  progressing := fun _ => rfl
  paused := nofun

lemma Rewrites.recordOk {r r' : RolloutRecord} (h : Rewrites r r') (hr : RecordOk r) :
    RecordOk r' := by
  cases h with
  | start hst now previous actor =>
    exact ⟨hr.index, nofun, fun _ => hr.pending hst, nofun⟩
  | advance hst hlast now actor =>
    refine ⟨?_, nofun, fun _ => hr.progressing hst, nofun⟩
    have hindex := hr.index
    have hnext : ¬ (r.currentStageIndex + 1 ≥ r.spec.stages.length) := of_decide_eq_false hlast
    show 0 ≤ r.currentStageIndex + 1 ∧ r.currentStageIndex + 1 < r.spec.stages.length
    omega
  | complete hst now actor =>
    exact ⟨hr.index, nofun, nofun, nofun⟩
  | pause hst now hreason detail actor =>
    exact ⟨hr.index, nofun, nofun, fun _ => hreason⟩
  | resume hst now actor =>
    exact ⟨hr.index, nofun, fun _ => rfl, nofun⟩
  | abort hst now actor | fail hst now reason =>
    exact ⟨hr.index, nofun, nofun, nofun⟩

/-! ## the rollouts in the store -/

section
variable {s : MemoryPersistentStore} {r q : RolloutRecord} {id : String}

@[simp] lemma putRollout_find (s : MemoryPersistentStore) (r : RolloutRecord) (k : String) :
    (s.putRollout r).rollouts.find k = if r.rolloutId = k then some r else s.rollouts.find k :=
  Table.find_put _ _ _

lemma RolloutInv.putRollout (h : RolloutInv s) (hr : RecordOk r)
    (hfree : isActiveStatus r.status → ∀ id q, s.rollouts.find id = some q →
      id ≠ r.rolloutId → q.targetVersionId = r.targetVersionId → isActiveStatus q.status = false) :
    RolloutInv (s.putRollout r) where
  records := by
    intro id q hq
    rw [putRollout_find] at hq
    split at hq
    · cases hq
      exact hr
    · exact h.records id q hq
  unique := by
    intro id1 id2 r1 r2 h1 h2 ht ha1 ha2
    rw [putRollout_find] at h1 h2
    split at h1 <;> split at h2
    · rename_i e1 e2
      rw [← e1, e2]
    · rename_i e1 e2
      cases h1
      rw [hfree ha1 id2 r2 h2 (Ne.symm e2) ht.symm] at ha2
      cases ha2
    · rename_i e1 e2
      cases h2
      rw [hfree ha2 id1 r1 h1 (Ne.symm e1) ht] at ha1
      cases ha1
    · exact h.unique id1 id2 r1 r2 h1 h2 ht ha1 ha2

lemma contended_eq_false (h : s.contended r = false) (hq : s.rollouts.find id = some q)
    (hid : id ≠ r.rolloutId) (ht : q.targetVersionId = r.targetVersionId) :
    isActiveStatus q.status = false := by
  have hmem := Table.find_eq_some_iff.1 hq
  have hno := any_eq_false.1 h q hmem.1
  rw [hmem.2.symm] at hid
  simpa [hid, ht] using hno

lemma mem_rows_of_listRollouts {q : RolloutQuery} (h : r ∈ s.listRollouts q) :
    r ∈ s.rollouts.rows := by
  have hstart := mem_of_mem_take h
  have hsorted : r ∈ (s.rollouts.rows.filter
      (q.statuses.isEmpty || ·.status ∈ q.statuses)).insertionSort
        (fun a b => ¬ startedLater b a) := by
    split at hstart
    · exact hstart
    · exact (dropWhile_sublist _).subset (mem_of_mem_drop hstart)
  exact mem_of_mem_filter ((mem_insertionSort _).1 hsorted)

section
variable {c : StoreCall} (hinsert : ∀ r, c ≠ .insertRollout r) (hupdate : ∀ r, c ≠ .updateRollout r)
include hinsert hupdate

lemma exec_config (s : MemoryPersistentStore) : ∃ versions active,
    (exec c s).2 = { s with configVersions := versions, activeConfigVersionId := active } := by
  cases c with
  | insertRollout r => exact absurd rfl (hinsert r)
  | updateRollout r => exact absurd rfl (hupdate r)
  | insertConfigVersion r =>
    rcases insertConfigVersion_cases r s with e | ⟨-, -, e⟩ <;> exact ⟨_, _, congrArg Prod.snd e⟩
  | updateConfigStatus versionId st actor comment ms =>
    cases hfind : s.configVersions.find versionId with
    | none => exact ⟨_, _, congrArg Prod.snd (updateConfigStatus_missing hfind ..)⟩
    | some r => exact ⟨_, _, congrArg Prod.snd (updateConfigStatus_found hfind ..)⟩
  | activateConfig versionId activator ms =>
    rcases activateConfig_cases versionId activator ms s with e | ⟨target, -, -, e⟩
    · exact ⟨_, _, e⟩
    · exact ⟨_, _, congrArg Prod.snd e⟩
  | _ => exact ⟨_, _, rfl⟩

lemma exec_rollouts (s : MemoryPersistentStore) : (exec c s).2.rollouts = s.rollouts := by
  obtain ⟨versions, active, e⟩ := exec_config hinsert hupdate s
  rw [e]

end

end

/-! ## one request -/

structure Held (s₀ : MemoryPersistentStore) (past : Past) (s : MemoryPersistentStore) : Prop where
  inv : RolloutInv s
  known : ∀ id r, known past id = some r → s.rollouts.find id = some r
  ended : ∀ id r, s₀.rollouts.find id = some r → isActiveStatus r.status = false →
    s.rollouts.find id = some r

section
variable {s₀ s : MemoryPersistentStore} {past : Past}

lemma Held.start (h : RolloutInv s) : Held s [] s :=
  ⟨h, fun _ _ hknown => (by cases hknown), fun _ _ hr _ => hr⟩

section
variable (h : Held s₀ past s)
include h

lemma Held.read {c : StoreCall} {answer : c.Answer}
    {s' : MemoryPersistentStore} (hsame : s'.rollouts = s.rollouts)
    (hlearn : ∀ id r, learns c answer id = some r → s.rollouts.find id = some r) :
    Held s₀ (⟨c, answer⟩ :: past) s' where
  inv := ⟨by rw [hsame]; exact h.inv.records, by rw [hsame]; exact h.inv.unique⟩
  known := by
    intro id r hr
    rw [hsame]
    rcases Option.or_eq_some_iff.1 hr with hr | ⟨-, hr⟩
    · exact hlearn id r hr
    · exact h.known id r hr
  ended := by rw [hsame]; exact h.ended

lemma Held.insert {r : RolloutRecord} (hc : RolloutCall past (.insertRollout r)) :
    Held s₀ (⟨.insertRollout r, (s.insertRollout r).1⟩ :: past) (s.insertRollout r).2 := by
  obtain ⟨spec, creator, id, hstages, rfl⟩ := hc
  rcases insertRollout_cases (created spec creator id) s with e | ⟨-, -, hnew, hfree, e⟩
  · rw [e]
    exact h.read rfl (fun _ _ hl => by cases hl)
  · rw [e]
    have hother : ∀ i r, s.rollouts.find i = some r →
        (s.putRollout (created spec creator id)).rollouts.find i = some r := by
      intro i r hr
      rw [putRollout_find, if_neg]
      · exact hr
      · rintro rfl
        rw [hnew] at hr
        cases hr
    refine ⟨?_, fun i r hr => hother i r (h.known i r hr), fun i r hr hend =>
      hother i r (h.ended i r hr hend)⟩
    refine h.inv.putRollout (recordOk_created hstages creator id) fun hact i q hq _ ht => ?_
    have hno := find?_eq_none.1 (hfree hact) q (Table.find_eq_some_iff.1 hq).1
    simpa [ht] using hno

lemma Held.update {r' : RolloutRecord} (hc : RolloutCall past (.updateRollout r')) :
    Held s₀ (⟨.updateRollout r', (s.updateRollout r').1⟩ :: past) (s.updateRollout r').2 := by
  obtain ⟨r, hknown, hrew⟩ := hc
  have hstored := h.known _ _ hknown
  rcases updateRollout_cases r' s with e | ⟨-, -, hfree, e⟩
  · rw [e]
    exact h.read rfl (fun _ _ hl => by simp [learns] at hl)
  · rw [e]
    refine ⟨?_, fun i q hq => ?_, fun i q hq hend => ?_⟩
    · exact h.inv.putRollout (hrew.recordOk (h.inv.records _ _ hstored))
        (fun hact i q hq hi ht => contended_eq_false (hfree hact) hq hi ht)
    · rw [putRollout_find]
      rcases Option.or_eq_some_iff.1 hq with hq | ⟨hnone, hq⟩
      · by_cases hi : r'.rolloutId = i
        · simpa [learns, hi] using hq
        · simp [learns, hi] at hq
      · have hi : r'.rolloutId ≠ i := by
          intro e
          simp [learns, e] at hnone
        rw [if_neg hi]
        exact h.known i q hq
    · -- what has ended is not what the request rewrites: that one can still move
      have hi : r'.rolloutId ≠ i := by
        rintro rfl
        rw [h.ended _ q hq hend] at hstored
        cases hstored
        rw [hrew.active] at hend
        cases hend
      rw [putRollout_find, if_neg hi]
      exact h.ended i q hq hend

lemma Held.call {c : StoreCall} (hc : RolloutCall past c) :
    Held s₀ (⟨c, (exec c s).1⟩ :: past) (exec c s).2 := by
  cases c with
  | insertRollout r => exact h.insert hc
  | updateRollout r => exact h.update hc
  | getRollout i =>
    refine h.read rfl fun id r hl => ?_
    simp only [learns] at hl
    split at hl
    · rename_i e
      exact e ▸ hl
    · cases hl
  | listRollouts q =>
    refine h.read rfl fun id r hl => ?_
    have e := find?_some hl
    exact Table.find_eq_some_iff.2
      ⟨mem_rows_of_listRollouts (mem_of_find?_eq_some hl), of_decide_eq_true e⟩
  | _ =>
    refine h.read (exec_rollouts (fun _ hc => (by cases hc)) (fun _ hc => (by cases hc)) s)
      (fun id r hl => (by cases hl))

end

theorem perform_held (d : Deps) (c : ControllerDeps) (h : RolloutInv s) (r : ControlRequest) :
    RolloutInv (perform d c s r) ∧
      ∀ id q, s.rollouts.find id = some q → isActiveStatus q.status = false →
        (perform d c s r).rollouts.find id = some q := by
  obtain ⟨past, hheld, -⟩ := Proc.run_wp (fun _ s' c hJ hc => ⟨exec_admitted c s', hJ.call hc⟩)
    (r.prog d c) [] s (Held.start h) (wp_request d c r [])
  exact ⟨hheld.inv, hheld.ended⟩

end

/-! ## runs -/

def withoutRollouts (initialized : Bool) (versions : Table versionId)
    (activeId : String) : MemoryPersistentStore :=
  { initialized, configVersions := versions, activeConfigVersionId := activeId }

lemma rolloutInv_start (initialized : Bool) (versions : Table versionId)
    (activeId : String) : RolloutInv (withoutRollouts initialized versions activeId) where
  records := fun id r hr => by cases hr
  unique := fun id1 id2 r1 r2 h1 => by cases h1

lemma rolloutInv_run (d : Deps) (c : ControllerDeps) {s : MemoryPersistentStore}
    (h : RolloutInv s) (calls : List ControlRequest) :
    RolloutInv (Run.exec (perform d c) s calls) :=
  Run.exec_inv (P := fun _ => True) (I := RolloutInv)
    (fun _ r _ hs => (perform_held d c hs r).1) calls s h fun _ _ => trivial

lemma ended_run (d : Deps) (c : ControllerDeps) {s : MemoryPersistentStore} (h : RolloutInv s)
    (calls : List ControlRequest) {id : String} {r : RolloutRecord}
    (hr : s.rollouts.find id = some r) (hend : isActiveStatus r.status = false) :
    (Run.exec (perform d c) s calls).rollouts.find id = some r := by
  have hboth : RolloutInv (Run.exec (perform d c) s calls) ∧
      (Run.exec (perform d c) s calls).rollouts.find id = some r :=
    Run.exec_inv (P := fun _ => True) (I := fun s => RolloutInv s ∧ s.rollouts.find id = some r)
      (fun s q _ hs => ⟨(perform_held d c hs.1 q).1, (perform_held d c hs.1 q).2 id r hs.2 hend⟩)
      calls s ⟨h, hr⟩ fun _ _ => trivial
  exact hboth.2

/-- in every run: a target has at most one rollout that can move, the stage index is one of a stage,
an ended rollout is never modified, and a rollout has a pause reason when paused and none while it
progresses -/
theorem rollout_lifecycle (d : Deps) (c : ControllerDeps) (initialized : Bool)
    (versions : Table versionId) (activeId : String) (calls : List ControlRequest) :
    let s := Run.exec (perform d c) (withoutRollouts initialized versions activeId) calls
    (∀ id₁ id₂ r₁ r₂, s.rollouts.find id₁ = some r₁ → s.rollouts.find id₂ = some r₂ →
      r₁.targetVersionId = r₂.targetVersionId → isActiveStatus r₁.status →
        isActiveStatus r₂.status → id₁ = id₂) ∧ (∀ id r, s.rollouts.find id = some r →
      0 ≤ r.currentStageIndex ∧ r.currentStageIndex < r.spec.stages.length) ∧
    (∀ id r, s.rollouts.find id = some r →
      r.status = .completed ∨ r.status = .failed ∨ r.status = .aborted →
        ∀ later, (Run.exec (perform d c) s later).rollouts.find id = some r) ∧
    (∀ id r, s.rollouts.find id = some r → (r.status = .paused → r.pauseReason ≠ .unspecified) ∧
        (r.status = .progressing → r.pauseReason = .unspecified)) := by
  intro s
  have h : RolloutInv s := rolloutInv_run d c (rolloutInv_start initialized versions activeId) calls
  refine ⟨h.unique, fun id r hr => (h.records id r hr).index, fun id r hr hst later => ?_,
    fun id r hr => ⟨(h.records id r hr).paused, (h.records id r hr).progressing⟩⟩
  refine ended_run d c h later hr ?_
  rcases hst with hst | hst | hst <;> rw [hst] <;> rfl

end AegisGate.ControlPlane
