import AegisGate.ControlPlane.RolloutLifecycle

/-!
# Rollout requests in progress at the same time

The controller takes no lock either: operators' requests and the ticker interleave call by call.  A
run starts in any store.

* `ControlEvent`, `controlStep`  a request arrives, or one of those in progress makes its next call;
* `HasEnded id st P`  the rollout has come to the terminal status `st`;
* `WriteFits`  a request that writes a rollout has not missed its end: the rollout
  has not ended since the request last saw it, or ended with the very status that is written.

A request writes back a whole record it has read earlier, and the store does not look at what it
overwrites: `aborted_rollout_paused` shows an aborted rollout come back to life as a paused one.
-/

namespace AegisGate.ControlPlane

open MemoryPersistentStore

abbrev ControlPool := Proc.Pool MemoryPersistentStore StoreCall StoreCall.Answer Unit

inductive ControlEvent where
  | arrive (r : ControlRequest)
  | step (i : ℕ)

def ControlEvent.toEvent (d : Deps) (c : ControllerDeps) :
    ControlEvent → Proc.Event StoreCall StoreCall.Answer Unit
  | .arrive r => .spawn (r.prog d c)
  | .step i => .step i

def controlStep (d : Deps) (c : ControllerDeps) (P : ControlPool) (e : ControlEvent) : ControlPool :=
  P.step exec (e.toEvent d c)

def HasEnded (id : String) (st : RolloutStatus) (P : ControlPool) : Prop :=
  isActiveStatus st = false ∧ ∃ r, P.store.rollouts.find id = some r ∧ r.status = st

def WriteFits (d : Deps) (c : ControllerDeps) (P : ControlPool) (e : ControlEvent) : Prop :=
  ∀ past r' r, P.pending (e.toEvent d c) = some (past, .updateRollout r') →
    P.store.rollouts.find r'.rolloutId = some r → (P.store.updateRollout r').1 →
      (∀ q, known past r'.rolloutId = some q → isActiveStatus q.status →
        isActiveStatus r.status) ∨ r'.status = r.status

/-! ## one call -/

abbrev KeepsWrites : ControlPool → Prop := Proc.Pool.Kept RolloutCall Admitted

section
variable {d : Deps} {c : ControllerDeps} {P : ControlPool}

lemma KeepsWrites.step (h : KeepsWrites P) (e : ControlEvent) :
    KeepsWrites (controlStep d c P e) := by
  refine Proc.Pool.step_inv (exec_admitted · P.store) (fun p hp => ?_) h
  cases e with
  | arrive r =>
    cases hp
    exact wp_request d c r []
  | step i => cases hp

/-- a store in which the ended rollouts are as they were -/
def KeepsEnded (s s' : MemoryPersistentStore) : Prop :=
  ∀ id r, s.rollouts.find id = some r → isActiveStatus r.status = false →
    ∃ r', s'.rollouts.find id = some r' ∧ r'.status = r.status

lemma keepsEnded_of_eq {s s' : MemoryPersistentStore} (h : s'.rollouts = s.rollouts) :
    KeepsEnded s s' := by
  intro id r hr _
  rw [h]
  exact ⟨r, hr, rfl⟩

lemma keepsEnded_insert (s : MemoryPersistentStore) (r : RolloutRecord) :
    KeepsEnded s (s.insertRollout r).2 := by
  rcases insertRollout_cases r s with e | ⟨-, -, hnew, -, e⟩
  · rw [e]
    exact keepsEnded_of_eq rfl
  · rw [e]
    intro id q hq _
    refine ⟨q, ?_, rfl⟩
    rw [putRollout_find, if_neg]
    · exact hq
    · rintro rfl
      rw [hnew] at hq
      cases hq

lemma keepsEnded_update_iff {s : MemoryPersistentStore} {past : Past} {r' : RolloutRecord}
    (hc : RolloutCall past (.updateRollout r')) : KeepsEnded s (s.updateRollout r').2 ↔
      ∀ r, s.rollouts.find r'.rolloutId = some r → (s.updateRollout r').1 →
        (∀ q, known past r'.rolloutId = some q → isActiveStatus q.status →
          isActiveStatus r.status) ∨ r'.status = r.status := by
  obtain ⟨q, hq, hrew⟩ := hc
  rcases updateRollout_cases r' s with e | ⟨-, -, -, e⟩
  · rw [e]
    exact ⟨fun _ r _ h => (by cases h), fun _ => keepsEnded_of_eq rfl⟩
  · rw [e]
    constructor
    · intro h r hr _
      cases hact : isActiveStatus r.status with
      | true => exact .inl fun _ _ _ => rfl
      | false =>
        obtain ⟨r2, hr2, hst⟩ := h _ r hr hact
        rw [putRollout_find, if_pos rfl] at hr2
        cases hr2
        exact .inr hst
    · intro h id r hr hend
      rw [putRollout_find]
      split
      · rename_i hid
        subst hid
        refine ⟨r', rfl, ?_⟩
        rcases h r hr rfl with hfresh | hsame
        · rw [hfresh q hq hrew.active] at hend
          cases hend
        · exact hsame
      · exact ⟨r, hr, rfl⟩

lemma keepsEnded_step_iff (h : KeepsWrites P) (e : ControlEvent) :
    KeepsEnded P.store (controlStep d c P e).store ↔ WriteFits d c P e := by
  unfold controlStep WriteFits
  rw [Proc.Pool.step_store]
  cases hp : P.pending (e.toEvent d c) with
  | none => exact ⟨fun _ past r' r hcall => (by cases hcall), fun _ => keepsEnded_of_eq rfl⟩
  | some pc =>
    obtain ⟨past, call⟩ := pc
    have hc : RolloutCall past call := h.pending hp
    cases call with
    | updateRollout r' =>
      refine (keepsEnded_update_iff hc).trans ⟨fun hfit past2 r2 r hcall hr hok => ?_, fun hfit r => ?_⟩
      · cases hcall
        exact hfit r hr hok
      · exact hfit past r' r rfl
    | insertRollout r =>
      exact ⟨fun _ _ _ _ hcall => (by cases hcall), fun _ => keepsEnded_insert P.store r⟩
    | _ =>
      refine ⟨fun _ _ _ _ hcall => (by cases hcall), fun _ => keepsEnded_of_eq ?_⟩
      exact exec_rollouts (fun _ hcall => (by cases hcall)) (fun _ hcall => (by cases hcall)) _

lemma keepsEnded_iff_hasEnded (P' : ControlPool) :
    KeepsEnded P.store P'.store ↔ ∀ i : String × RolloutStatus, HasEnded i.1 i.2 P →
      HasEnded i.1 i.2 P' := by
  constructor
  · rintro h ⟨id, st⟩ ⟨hend, r, hr, rfl⟩
    exact ⟨hend, h id r hr hend⟩
  · intro h id r hr hend
    exact (h (id, r.status) ⟨hend, r, hr, rfl⟩).2

end

/-- in any interleaved run: a rollout keeps a terminal status exactly when no request that writes a
rollout has missed its end -/
theorem terminal_status_iff (d : Deps) (c : ControllerDeps) (s₀ : MemoryPersistentStore)
    (events : List ControlEvent) : (∀ l₁ l₂, l₁ <+: l₂ → l₂ <+: events → ∀ id r₁,
      (Run.exec (controlStep d c) { store := s₀ } l₁).store.rollouts.find id = some r₁ →
      isActiveStatus r₁.status = false →
        ∃ r₂, (Run.exec (controlStep d c) { store := s₀ } l₂).store.rollouts.find id = some r₂ ∧
          r₂.status = r₁.status) ↔
      Run.Along (controlStep d c) (WriteFits d c) { store := s₀ } events := by
  have hstart : KeepsWrites { store := s₀ } := nofun
  have hiff : Run.Along (controlStep d c) (fun P e => ∀ i : String × RolloutStatus,
      HasEnded i.1 i.2 P → HasEnded i.1 i.2 (controlStep d c P e)) { store := s₀ } events ↔
        Run.Along (controlStep d c) (WriteFits d c) { store := s₀ } events := by
    refine Run.along_congr (I := KeepsWrites) (A := fun _ => True) (fun P e h _ => ?_)
      (fun P e h _ _ => h.step e) events _ hstart fun _ _ => trivial
    rw [← keepsEnded_iff_hasEnded, keepsEnded_step_iff h]
  rw [← hiff, Run.along_stable_iff]
  constructor
  · rintro h l₁ l₂ h1 h2 ⟨id, st⟩ ⟨hend, r, hr, rfl⟩
    exact ⟨hend, h l₁ l₂ h1 h2 id r hr hend⟩
  · intro h l₁ l₂ h1 h2 id r hr hend
    exact (h l₁ l₂ h1 h2 (id, r.status) ⟨hend, r, hr, rfl⟩).2

def rolloutUnderWay : MemoryPersistentStore :=
  Run.exec (perform acceptAll {}) { initialized := true }
    [.config (.submit "v: 1" "alice" "" false true 1 "A"), .config (.approve "A" "bob" "" 2),
     .create { targetVersionId := "A", stages := [{ name := "full" }] } "alice" true "R",
     .start "R" "alice" 3]

/-- `bob` pauses the rollout while `carol` aborts it: both have read it before either writes -/
def pauseRacesAbort : List ControlEvent :=
  [.arrive (.pause "R" "bob" "" 4), .arrive (.abort "R" "carol" 5 5), .step 0, .step 1, .step 1,
   .step 0]

theorem aborted_rollout_paused :
    (∃ r, (Run.exec (controlStep acceptAll {}) { store := rolloutUnderWay }
        (pauseRacesAbort.take 5)).store.rollouts.find "R" = some r ∧ r.status = .aborted) ∧
      ∃ r, (Run.exec (controlStep acceptAll {}) { store := rolloutUnderWay }
        pauseRacesAbort).store.rollouts.find "R" = some r ∧ r.status = .paused :=
  ⟨⟨_, rfl, rfl⟩, ⟨_, rfl, rfl⟩⟩

end AegisGate.ControlPlane
