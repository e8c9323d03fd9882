import AegisGate.ControlPlane.ConfigLifecycle

/-!
# Config requests in progress at the same time

The service takes no lock of its own: a request is a sequence of store calls, and the calls of
different requests interleave.  A run starts from an empty store; requests arrive at any time, and one
of those in progress makes its next call.

* `RaceEvent`, `raceStep`  a request arrives, or one takes a step;
* `statusHistory`  the statuses one version has in the states of a run;
* `VerdictFits`  at the moment a review writes its verdict, the table still has it for the
  stored status.

A review checks the status in one call and writes its verdict in another, so the status may have
changed in between: `verdict_over_rejection` shows an approval written over a rejection.  Activations
decide and write in one call and never leave the documented changes.
-/

namespace AegisGate.ControlPlane

open MemoryPersistentStore Option

abbrev Pool := Proc.Pool MemoryPersistentStore StoreCall StoreCall.Answer ServiceResult

inductive RaceEvent where
  | arrive (r : Request)
  | step (i : ℕ)

variable (d : Deps)

def RaceEvent.toEvent : RaceEvent → Proc.Event StoreCall StoreCall.Answer ServiceResult
  | .arrive r => .spawn (r.prog d)
  | .step i => .step i

def raceStep (P : Pool) (e : RaceEvent) : Pool := P.step exec (e.toEvent d)

def emptyPool (initialized : Bool) : Pool := { store := { initialized } }

def statusOf (id : String) (P : Pool) : Option ConfigStatus :=
  (P.store.configVersions.find id).map (·.status)

def statusHistory (id : String) (P : Pool) (events : List RaceEvent) : List ConfigStatus :=
  Run.history (raceStep d) (statusOf id) P events

/-- the verdict that the event is about to write is the stored status, or the table leads to it -/
def VerdictFits (P : Pool) (e : RaceEvent) : Prop :=
  ∀ past id st actor comment ms r,
    P.pending (e.toEvent d) = some (past, .updateConfigStatus id st actor comment ms) →
    P.store.configVersions.find id = some r →
      r.status = st ∨ next r.status (reviewAction st) = some st

abbrev KeepsCalls : Pool → Prop := Proc.Pool.Kept (fun _ c => ConfigCall c) (fun _ _ => True)

lemma KeepsCalls.step {d : Deps} {P : Pool} (h : KeepsCalls P) (e : RaceEvent) :
    KeepsCalls (raceStep d P e) := by
  refine Proc.Pool.step_inv (fun _ => trivial) (fun p hp => ?_) h
  cases e with
  | arrive r =>
    cases hp
    exact wp_prog d r
  | step i => cases hp

/-! ## what one call does to the statuses -/

section
variable {s : MemoryPersistentStore} {r : ConfigVersionRecord} {st : ConfigStatus}
  {versionId : String} {c : StoreCall}

def Documents (s s' : MemoryPersistentStore) : Prop :=
  ∀ id r r', s.configVersions.find id = some r → s'.configVersions.find id = some r' →
    r.status = r'.status ∨ Documented r.status r'.status

lemma Documents.refl (s : MemoryPersistentStore) : Documents s s := by
  intro id r r' hr hr'
  rw [hr] at hr'
  cases hr'
  exact .inl rfl

lemma documents_putVersion_iff :
    Documents s (s.putVersion r) ↔ ∀ q, s.configVersions.find r.versionId = some q →
      q.status = r.status ∨ Documented q.status r.status := by
  constructor
  · intro h q hq
    exact h r.versionId q r hq (Table.find_put_self _ r)
  · intro h id q q' hq hq'
    rw [putVersion_find] at hq'
    split at hq'
    · rename_i e
      cases hq'
      exact h q (e ▸ hq)
    · rw [hq] at hq'
      cases hq'
      exact .inl rfl

lemma documents_activate (h : Pointed s) (versionId activator : String) (ms : ℤ) :
    Documents s (s.activateConfig versionId activator ms).2 := by
  rcases activateConfig_cases versionId activator ms s with e | ⟨target, hfind, hst, e⟩
  · rw [e]
    exact Documents.refl s
  · rw [e]
    intro id r r' hr hr'
    rw [find_switchTo hfind] at hr'
    split at hr'
    · rename_i hid
      cases hr'
      rw [hid, hfind] at hr
      cases hr
      rcases hst with hst | hst
      · rw [hst]
        exact .inr (show Documented .approved .active by decide)
      · rw [hst]
        exact .inr (show Documented .superseded .active by decide)
    · split at hr'
      · rename_i hid hact
        obtain ⟨act, hact', hst'⟩ := h.pointer (hact.1 ▸ hact.2)
        rw [← hact.1, hr] at hact'
        cases hact'
        rw [hr] at hr'
        cases hr'
        rw [hst']
        exact .inr (show Documented .active .superseded by decide)
      · rw [hr] at hr'
        cases hr'
        exact .inl rfl

lemma documents_update_iff (hst : st = .approved ∨ st = .rejected) (actor comment : String)
    (ms : ℤ) : Documents s (s.updateConfigStatus versionId st actor comment ms).2 ↔
      ∀ r, s.configVersions.find versionId = some r →
        r.status = st ∨ next r.status (reviewAction st) = some st := by
  cases hfind : s.configVersions.find versionId with
  | none =>
    rw [updateConfigStatus_missing hfind]
    exact ⟨fun _ r hr => (by cases hr), fun _ => Documents.refl s⟩
  | some r =>
    rw [updateConfigStatus_found hfind, documents_putVersion_iff]
    rw [reviewed_versionId, reviewed_status, Table.key_of_find hfind, hfind]
    refine forall_congr' fun q => imp_congr_right fun _ => or_congr_right ?_
    rcases hst with rfl | rfl <;> cases q.status <;> decide

lemma exec_sound (h : Pointed s) (hc : ConfigCall c)
    (hne : ∀ id st actor comment ms, c ≠ .updateConfigStatus id st actor comment ms) :
    Documents s (exec c s).2 ∧ Pointed (exec c s).2 := by
  cases c with
  | updateConfigStatus id st actor comment ms => exact absurd rfl (hne id st actor comment ms)
  | insertConfigVersion r =>
    show Documents s (s.insertConfigVersion r).2 ∧ Pointed (s.insertConfigVersion r).2
    rcases insertConfigVersion_cases r s with e | ⟨hid, hnew, e⟩
    · rw [e]
      exact ⟨Documents.refl s, h⟩
    · rw [e]
      refine ⟨documents_putVersion_iff.2 fun q hq => ?_, h.putVersion hid (fun q hq => ?_) ?_⟩
      · rw [hnew] at hq
        cases hq
      · rw [hnew] at hq
        cases hq
      · rw [show r.status = .pending from hc]
        decide
  | activateConfig versionId activator ms =>
    exact ⟨documents_activate h versionId activator ms, h.activateConfig versionId activator ms⟩
  | insertRollout r | updateRollout r => exact hc.elim
  | _ => exact ⟨Documents.refl s, h⟩

lemma pointed_update (h : Pointed s) (hst : st = .approved ∨ st = .rejected)
    (actor comment : String) (ms : ℤ) (hfit : ∀ r, s.configVersions.find versionId = some r →
      r.status = st ∨ next r.status (reviewAction st) = some st) :
    Pointed (s.updateConfigStatus versionId st actor comment ms).2 := by
  cases hfind : s.configVersions.find versionId with
  | none =>
    rw [updateConfigStatus_missing hfind]
    exact h
  | some r =>
    rw [updateConfigStatus_found hfind]
    refine h.verdict hfind ?_ ?_ actor comment ms
    · -- the active status has no verdict in the table
      intro hact
      have hr := hfit r hfind
      rw [hact] at hr
      rcases hst with rfl | rfl <;> revert hr <;> decide
    · rcases hst with rfl | rfl <;> decide

lemma find_exec (c : StoreCall) {id : String} (h : s.configVersions.find id = some r) :
    ∃ r', (exec c s).2.configVersions.find id = some r' := by
  have hput : ∀ q, ∃ r', (s.putVersion q).configVersions.find id = some r' := by
    intro q
    rw [putVersion_find]
    split
    · exact ⟨q, rfl⟩
    · exact ⟨r, h⟩
  cases c with
  | insertConfigVersion q =>
    show ∃ r', (s.insertConfigVersion q).2.configVersions.find id = some r'
    rcases insertConfigVersion_cases q s with e | ⟨-, -, e⟩ <;> rw [e]
    · exact ⟨r, h⟩
    · exact hput q
  | updateConfigStatus versionId st actor comment ms =>
    show ∃ r', (s.updateConfigStatus versionId st actor comment ms).2.configVersions.find id = some r'
    cases hfind : s.configVersions.find versionId with
    | none => rw [updateConfigStatus_missing hfind]; exact ⟨r, h⟩
    | some q => rw [updateConfigStatus_found hfind]; exact hput _
  | activateConfig versionId activator ms =>
    show ∃ r', (s.activateConfig versionId activator ms).2.configVersions.find id = some r'
    rcases activateConfig_cases versionId activator ms s with e | ⟨target, hfind, -, e⟩
    · rw [e]
      exact ⟨r, h⟩
    · rw [e, find_switchTo hfind, h]
      split
      · exact ⟨_, rfl⟩
      split
      · exact ⟨_, rfl⟩
      · exact ⟨r, rfl⟩
  | insertRollout q =>
    show ∃ r', (s.insertRollout q).2.configVersions.find id = some r'
    rcases insertRollout_cases q s with e | ⟨-, -, -, -, e⟩ <;> rw [e] <;> exact ⟨r, h⟩
  | updateRollout q =>
    show ∃ r', (s.updateRollout q).2.configVersions.find id = some r'
    rcases updateRollout_cases q s with e | ⟨-, -, -, e⟩ <;> rw [e] <;> exact ⟨r, h⟩
  | _ => exact ⟨r, h⟩

lemma Pointed.getActiveConfig (h : Pointed s) (hr : s.getActiveConfig = some r) :
    r.status = .active := by
  unfold MemoryPersistentStore.getActiveConfig at hr
  split at hr
  · cases hr
  · rename_i hne
    obtain ⟨act, hact, hst⟩ := h.pointer hne
    rw [hact] at hr
    cases hr
    exact hst

end

/-! ## runs -/

structure RaceInv (P : Pool) : Prop where
  calls : KeepsCalls P
  store : Pointed P.store

lemma RaceInv.empty (initialized : Bool) : RaceInv (emptyPool initialized) where
  calls := nofun
  store := Pointed.empty initialized

lemma documents_step_iff {d : Deps} {P : Pool} (h : RaceInv P) (e : RaceEvent) :
    Documents P.store (raceStep d P e).store ↔ VerdictFits d P e := by
  unfold raceStep VerdictFits
  rw [Proc.Pool.step_store]
  cases hp : P.pending (e.toEvent d) with
  | none => exact ⟨fun _ past id st actor comment ms r hc => (by cases hc), fun _ => Documents.refl _⟩
  | some pc =>
    obtain ⟨past, c⟩ := pc
    have hc : ConfigCall c := h.calls.pending hp
    cases c with
    | updateConfigStatus versionId st actor comment ms =>
      refine (documents_update_iff hc actor comment ms).trans ?_
      constructor
      · intro hfit past' id st' actor' comment' ms' r hcall hr
        cases hcall
        exact hfit r hr
      · intro hfit r hr
        exact hfit past versionId st actor comment ms r rfl hr
    | _ =>
      refine ⟨fun _ _ _ _ _ _ _ _ hcall => (by cases hcall), fun _ => ?_⟩
      exact (exec_sound h.store hc fun _ _ _ _ _ hcall => (by cases hcall)).1

lemma RaceInv.step {d : Deps} {P : Pool} (h : RaceInv P) (e : RaceEvent)
    (hfit : VerdictFits d P e) : RaceInv (raceStep d P e) where
  calls := h.calls.step e
  store := by
    unfold raceStep
    rw [Proc.Pool.step_store]
    cases hp : P.pending (e.toEvent d) with
    | none => exact h.store
    | some pc =>
      obtain ⟨past, c⟩ := pc
      have hc : ConfigCall c := h.calls.pending hp
      cases c with
      | updateConfigStatus versionId st actor comment ms =>
        exact pointed_update h.store hc actor comment ms
          (fun r hr => hfit past versionId st actor comment ms r hp hr)
      | _ => exact (exec_sound h.store hc fun _ _ _ _ _ hcall => (by cases hcall)).2

lemma statusOf_stays (d : Deps) (id : String) (P : Pool) (e : RaceEvent) (x : ConfigStatus)
    (h : statusOf id P = some x) : ∃ y, statusOf id (raceStep d P e) = some y := by
  obtain ⟨r, hr, -⟩ := map_eq_some_iff.1 h
  unfold statusOf raceStep
  rw [Proc.Pool.step_store]
  cases hp : P.pending (e.toEvent d) with
  | none => exact ⟨x, h⟩
  | some pc =>
    obtain ⟨r', hr'⟩ := find_exec pc.2 hr
    exact ⟨r'.status, map_eq_some_iff.2 ⟨r', hr', rfl⟩⟩

lemma documents_iff_statusOf (P P' : Pool) :
    Documents P.store P'.store ↔ ∀ id x y, statusOf id P = some x → statusOf id P' = some y →
      x = y ∨ Documented x y := by
  constructor
  · intro h id x y hx hy
    obtain ⟨r, hr, rfl⟩ := map_eq_some_iff.1 hx
    obtain ⟨r', hr', rfl⟩ := map_eq_some_iff.1 hy
    exact h id r r' hr hr'
  · intro h id r r' hr hr'
    exact h id _ _ (map_eq_some_iff.2 ⟨r, hr, rfl⟩) (map_eq_some_iff.2 ⟨r', hr', rfl⟩)

/-- in any interleaved run: the statuses of every version form a documented path, and the active
version is never rejected, exactly when every verdict fits the status it is written over -/
theorem status_history_iff (d : Deps) (initialized : Bool) (events : List RaceEvent) :
    ((∀ id, (statusHistory d id (emptyPool initialized) events).IsChain
        (fun a b => a = b ∨ Documented a b)) ∧ ∀ events', events' <+: events → ∀ r,
        (Run.exec (raceStep d) (emptyPool initialized) events').store.getActiveConfig = some r →
          r.status ≠ .rejected) ↔
      Run.Along (raceStep d) (VerdictFits d) (emptyPool initialized) events := by
  have hpaths : (∀ id, (statusHistory d id (emptyPool initialized) events).IsChain
      (fun a b => a = b ∨ Documented a b)) ↔
        Run.Along (raceStep d) (VerdictFits d) (emptyPool initialized) events := by
    have hchain := fun id => Run.isChain_history (fun a b => a = b ∨ Documented a b)
      (statusOf_stays d id) events (emptyPool initialized)
    refine (forall_congr' hchain).trans ((Run.along_forall events _).trans ?_)
    refine Run.along_congr (I := RaceInv) (A := fun _ => True) ?_ ?_ events _
      (RaceInv.empty initialized) fun _ _ => trivial
    · intro P e h _
      rw [← documents_step_iff h e, documents_iff_statusOf]
    · intro P e h _ hfit
      exact h.step e hfit
  refine ⟨fun h => hpaths.1 h.1, fun h => ⟨hpaths.2 h, fun events' hpre r hr => ?_⟩⟩
  have hinv : RaceInv (Run.exec (raceStep d) (emptyPool initialized) events') :=
    h.inv (I := RaceInv) (A := fun _ => True) (fun P e h _ hfit => h.step e hfit) events _
      (RaceInv.empty initialized) (fun _ _ => trivial) events' hpre
  rw [hinv.store.getActiveConfig hr]
  decide

/-- `bob` approves and `carol` rejects `A`: both read it before either writes -/
def approveRacesReject : List RaceEvent :=
  [.arrive (.submit "v: 1" "alice" "" false true 1 "A"), .step 0, .step 0,
   .arrive (.approve "A" "bob" "" 2), .arrive (.reject "A" "carol" "" 3),
   .step 1, .step 2, .step 2, .step 1]

/-- `carol` rejects the approved version `A` while `bob` activates it -/
def rejectRacesActivate : List RaceEvent :=
  [.arrive (.submit "v: 1" "alice" "" false true 1 "A"), .step 0, .step 0,
   .arrive (.approve "A" "bob" "" 2), .step 1, .step 1,
   .arrive (.reject "A" "carol" "" 3), .arrive (.activate "A" "bob" 4),
   .step 2, .step 3, .step 3, .step 3, .step 2]

theorem verdict_over_rejection :
    ¬ (statusHistory acceptAll "A" (emptyPool true) approveRacesReject).IsChain
        (fun a b => a = b ∨ Documented a b) ∧ ∃ r, (Run.exec (raceStep acceptAll) (emptyPool true)
        rejectRacesActivate).store.getActiveConfig = some r ∧ r.status = .rejected := by
  constructor
  · have e : statusHistory acceptAll "A" (emptyPool true) approveRacesReject =
        [.pending, .pending, .pending, .pending, .pending, .rejected, .approved] := rfl
    decide
  · exact ⟨_, rfl, rfl⟩

end AegisGate.ControlPlane
