import AegisGate.ControlPlane.Store

/-!
# The config service

`ConfigServiceCore` (`control_plane/config_service_core.cpp`): a version is submitted, reviewed by
somebody else, activated, and possibly rolled back to later.  Each function is a program over the
calls of the store, in the order the source makes them; `Request.prog` collects them.

The scanner, the YAML parser, the validator and the hash are parameters (`Deps`).  What a request
reads from its surroundings is part of the request: the clock, the answer of the rate limiter and
the fresh version id.

* `submit`, `approve`, `reject`, `activate`, `rollback`  the programs;
* `atomically`  a request run with nothing in between;
* `run_…`  what such a run does to the store.
-/

namespace AegisGate.ControlPlane

open MemoryPersistentStore Proc

structure SensitiveFinding where
  line : ℕ
  column : ℕ
  fieldName : String
  ruleId : String

inductive Severity where
  | error
  | warning
  deriving DecidableEq, Repr

structure ValidationIssue where
  severity : Severity
  field : String
  message : String

structure Deps where
  scan : String → List SensitiveFinding
  loadFromString : String → Bool
  validator : Option (String → List ValidationIssue)
  sha256 : String → String

def acceptAll : Deps where
  scan := fun _ => []
  loadFromString := fun _ => true
  validator := none
  sha256 := id

/-- `errorCode = ""` is success -/
structure ServiceResult where
  record : ConfigVersionRecord := {}
  errorCode : String := ""
  errorMessage : String := ""

/-! ## submitting -/

def kMaxBundleBytes : ℕ := 1024 * 1024

variable (d : Deps)

def validationErrors (yamlContent : String) : List ValidationIssue :=
  match d.validator with
  | none => []
  | some validate => (validate yamlContent).filter (·.severity = .error)

/-- the checks on the text alone, as error code and message -/
def refuseText (yamlContent : String) : Option (String × String) :=
  if yamlContent.utf8ByteSize > kMaxBundleBytes then
    some ("PAYLOAD_TOO_LARGE", "yaml_content exceeds 1 MiB limit")
  else if d.scan yamlContent ≠ [] then
    some ("SENSITIVE_FIELD_DETECTED", "sensitive field(s) detected: " ++
      ", ".intercalate ((d.scan yamlContent).map
        (fun f => f.fieldName ++ " (line " ++ toString f.line ++ ")")))
  else if d.loadFromString yamlContent = false then
    some ("INVALID_YAML", "yaml_content is not a valid YAML document")
  else if validationErrors d yamlContent ≠ [] then
    some ("CONFIG_VALIDATION_FAILED", "; ".intercalate ((validationErrors d yamlContent).map
      (fun i => i.field ++ ": " ++ i.message)))
  else none

/-- the live versions that a submission is compared with: the newest 500 -/
def dedupeQuery : ConfigVersionQuery :=
  { statuses := [.pending, .approved, .active], limit := 500 }

def submitted (yamlContent submitter comment : String) (now : ℤ)
    (versionId : String) : ConfigVersionRecord :=
  { versionId := versionId
    contentSha256 := d.sha256 yamlContent
    yamlContent := yamlContent
    sizeBytes := yamlContent.utf8ByteSize
    status := .pending
    submitter := submitter
    submitterComment := comment
    submittedAt := now }

def submit (yamlContent submitter comment : String) (validateOnly rateAllowed : Bool)
    (now : ℤ) (versionId : String) : Prog ServiceResult :=
  let draft : ConfigVersionRecord :=
    { submitter := submitter
      submitterComment := comment
      sizeBytes := yamlContent.utf8ByteSize }
  match refuseText d yamlContent with
  | some (code, message) => pure ⟨draft, code, message⟩
  | none => do
    let existing ← ask (.listConfigVersions dedupeQuery)
    let hashed := { draft with contentSha256 := d.sha256 yamlContent }
    match existing.find? (·.contentSha256 = d.sha256 yamlContent) with
    | some r =>
      pure ⟨hashed, "ALREADY_EXISTS",
        "a live version with this content already exists: " ++ r.versionId⟩
    | none =>
      if rateAllowed = false then
        pure ⟨hashed, "RATE_LIMITED", "too many submissions from this user"⟩
      else if validateOnly then
        -- the id stays empty, so that the answer cannot be taken for a stored version
        pure ⟨submitted d yamlContent submitter comment now "", "", ""⟩
      else do
        let stored ← ask
          (.insertConfigVersion (submitted d yamlContent submitter comment now versionId))
        if stored then pure ⟨submitted d yamlContent submitter comment now versionId, "", ""⟩
        else
          pure ⟨submitted d yamlContent submitter comment now "", "INTERNAL",
            "failed to persist config version"⟩

/-! ## reviewing -/

def reviewAction (target : ConfigStatus) : ConfigAction :=
  if target = .approved then .approve else .reject

section
variable (versionId reviewer comment : String)

def transitionReview (target : ConfigStatus) (now : ℤ) : Prog ServiceResult := do
  let existing ← ask (.getConfigVersion versionId)
  match existing with
  | none => pure { errorCode := "NOT_FOUND", errorMessage := "unknown version_id: " ++ versionId }
  | some existing =>
    if existing.submitter = reviewer then
      pure { errorCode := "PERMISSION_DENIED"
             errorMessage := "reviewer must differ from submitter" }
    else if next existing.status (reviewAction target) ≠ some target then
      pure { errorCode := "FAILED_PRECONDITION"
             errorMessage := "cannot transition from " ++ configStatusToString existing.status ++
               " via " ++ (if reviewAction target = .approve then "approve" else "reject") }
    else do
      let stored ← ask (.updateConfigStatus versionId target reviewer comment now)
      if stored = false then
        pure { errorCode := "INTERNAL", errorMessage := "failed to persist status transition" }
      else do
        let updated ← ask (.getConfigVersion versionId)
        match updated with
        | none => pure { errorCode := "INTERNAL", errorMessage := "version disappeared after update" }
        | some updated => pure { record := updated }

def approve (now : ℤ) : Prog ServiceResult :=
  transitionReview versionId reviewer comment .approved now

def reject (now : ℤ) : Prog ServiceResult :=
  transitionReview versionId reviewer comment .rejected now

end

/-! ## activating and rolling back -/

/-- the answer after an activation has been written -/
def reload (versionId errorMessage : String) : Prog ServiceResult := do
  let updated ← ask (.getConfigVersion versionId)
  match updated with
  | none => pure { errorCode := "INTERNAL", errorMessage }
  | some updated => pure { record := updated }

def activate (versionId activator : String) (now : ℤ) : Prog ServiceResult := do
  let existing ← ask (.getConfigVersion versionId)
  match existing with
  | none => pure { errorCode := "NOT_FOUND", errorMessage := "unknown version_id: " ++ versionId }
  | some existing =>
    if next existing.status .activate ≠ some .active then
      pure { errorCode := "FAILED_PRECONDITION"
             errorMessage := "cannot activate from status " ++
               configStatusToString existing.status }
    else do
      -- the previous version is read for the audit entry only
      let _ ← ask .getActiveConfig
      let switched ← ask (.activateConfig versionId activator now)
      if switched = false then
        pure { errorCode := "INTERNAL", errorMessage := "activateConfig failed" }
      else reload versionId "version disappeared after activation"

def rollback (targetVersionId activator : String) (emergency : Bool) (now : ℤ) :
    Prog ServiceResult :=
  if emergency then
    pure { errorCode := "EMERGENCY_NOT_IMPLEMENTED"
           errorMessage := "emergency rollback is reserved for Phase 12" }
  else do
    let target ← ask (.getConfigVersion targetVersionId)
    match target with
    | none =>
      pure { errorCode := "NOT_FOUND"
             errorMessage := "unknown target version_id: " ++ targetVersionId }
    | some target =>
      if next target.status .rollbackTo = none then
        pure { errorCode := "FAILED_PRECONDITION"
               errorMessage := "target status " ++ configStatusToString target.status ++
                 " cannot be rolled back to; use ActivateVersion for " ++
                 "approved-but-not-activated versions" }
      else do
        let _ ← ask .getActiveConfig
        -- rolling back to the active version does not touch the store
        if target.status = .active then pure { record := target }
        else do
          let switched ← ask (.activateConfig targetVersionId activator now)
          if switched = false then
            pure { errorCode := "INTERNAL", errorMessage := "activateConfig failed during rollback" }
          else reload targetVersionId "version disappeared after rollback"

/-! ## requests -/

inductive Request where
  | submit (yamlContent submitter comment : String) (validateOnly rateAllowed : Bool) (now : ℤ)
      (versionId : String)
  | approve (versionId reviewer comment : String) (now : ℤ)
  | reject (versionId reviewer comment : String) (now : ℤ)
  | activate (versionId activator : String) (now : ℤ)
  | rollback (targetVersionId activator : String) (emergency : Bool) (now : ℤ)

def Request.prog (d : Deps) : Request → Prog ServiceResult
  | .submit yaml submitter comment validateOnly rateAllowed now versionId =>
    ControlPlane.submit d yaml submitter comment validateOnly rateAllowed now versionId
  | .approve versionId reviewer comment now =>
    ControlPlane.approve versionId reviewer comment now
  | .reject versionId reviewer comment now => ControlPlane.reject versionId reviewer comment now
  | .activate versionId activator now => ControlPlane.activate versionId activator now
  | .rollback versionId activator emergency now =>
    ControlPlane.rollback versionId activator emergency now

def atomically (d : Deps) (s : MemoryPersistentStore) (r : Request) : MemoryPersistentStore :=
  ((r.prog d).run exec s).2

/-! ## what a request does on its own -/

section
variable {s : MemoryPersistentStore}

/-- the submission passes every check, and its id is new -/
structure Accepted (d : Deps) (s : MemoryPersistentStore) (yamlContent : String)
    (validateOnly rateAllowed : Bool) (versionId : String) : Prop where
  text : refuseText d yamlContent = none
  fresh : ∀ r ∈ s.listConfigVersions dedupeQuery, r.contentSha256 ≠ d.sha256 yamlContent
  rate : rateAllowed
  persist : validateOnly = false
  named : versionId ≠ ""
  unused : s.configVersions.find versionId = none

lemma run_submit (d : Deps) (s : MemoryPersistentStore) (yaml submitter comment : String)
    (validateOnly rateAllowed : Bool) (now : ℤ) (versionId : String) :
    Accepted d s yaml validateOnly rateAllowed versionId ∧
        ((submit d yaml submitter comment validateOnly rateAllowed now versionId).run exec s).2 =
          s.putVersion (submitted d yaml submitter comment now versionId) ∨
      ¬ Accepted d s yaml validateOnly rateAllowed versionId ∧
        ((submit d yaml submitter comment validateOnly rateAllowed now versionId).run exec s).2 =
          s := by
  unfold submit
  cases htext : refuseText d yaml with
  | some e => exact .inr ⟨fun h => by simp [h.text] at htext, rfl⟩
  | none =>
    simp only [run_bind, run_op, exec]
    cases hdup : (s.listConfigVersions dedupeQuery).find?
        (·.contentSha256 = d.sha256 yaml) with
    | some r =>
      refine .inr ⟨fun h => ?_, rfl⟩
      have e := List.find?_some hdup
      exact h.fresh r (List.mem_of_find?_eq_some hdup) (of_decide_eq_true e)
    | none =>
      have hfresh : ∀ r ∈ s.listConfigVersions dedupeQuery, r.contentSha256 ≠ d.sha256 yaml :=
        fun r hr => by simpa using List.find?_eq_none.1 hdup r hr
      cases rateAllowed with
      | false => exact .inr ⟨fun h => Bool.false_ne_true h.rate, rfl⟩
      | true =>
        cases validateOnly with
        | true => exact .inr ⟨fun h => Bool.false_ne_true h.persist.symm, rfl⟩
        | false =>
          simp only [Bool.true_eq_false, Bool.false_eq_true, if_false, run_bind, run_op, exec]
          by_cases hid : versionId = ""
          · refine .inr ⟨fun h => h.named hid, ?_⟩
            simp [insertConfigVersion, submitted, hid]
          · cases hnew : s.configVersions.find versionId with
            | some r =>
              refine .inr ⟨fun h => by simp [h.unused] at hnew, ?_⟩
              simp [insertConfigVersion, submitted, hid, hnew]
            | none =>
              refine .inl ⟨⟨htext, hfresh, rfl, rfl, hid, hnew⟩, ?_⟩
              have hput : s.insertConfigVersion
                  (submitted d yaml submitter comment now versionId) = _ :=
                insertConfigVersion_new hid hnew
              simp [hput]

/-- a review writes only its verdict, and only a verdict the table has for the stored status -/
lemma run_transitionReview (versionId reviewer comment : String) (target : ConfigStatus) (now : ℤ)
    (s : MemoryPersistentStore) :
    ((transitionReview versionId reviewer comment target now).run exec s).2 = s ∨
      ∃ existing, s.configVersions.find versionId = some existing ∧ existing.submitter ≠ reviewer ∧
        next existing.status (reviewAction target) = some target ∧
        ((transitionReview versionId reviewer comment target now).run exec s).2 =
          s.putVersion (reviewed target reviewer comment now existing) := by
  unfold transitionReview
  simp only [run_bind, run_op, exec, getConfigVersion]
  cases hfind : s.configVersions.find versionId with
  | none => exact .inl rfl
  | some existing =>
    dsimp only
    split
    · exact .inl rfl
    · rename_i hne
      split
      · exact .inl rfl
      · rename_i hnext
        refine .inr ⟨existing, rfl, hne, not_not.1 hnext, ?_⟩
        have hput := updateConfigStatus_found hfind target reviewer comment now
        simp only [run_bind, run_op, exec, hput, Bool.true_eq_false, if_false]
        split <;> rfl

lemma run_activate (versionId activator : String) (now : ℤ) (s : MemoryPersistentStore) :
    ((activate versionId activator now).run exec s).2 = s ∨
      ∃ target, s.configVersions.find versionId = some target ∧ target.status = .approved ∧
        ((activate versionId activator now).run exec s).2 =
          s.switchTo versionId activator now target := by
  unfold activate
  simp only [run_bind, run_op, exec, getConfigVersion]
  cases hfind : s.configVersions.find versionId with
  | none => exact .inl rfl
  | some target =>
    dsimp only
    split
    · exact .inl rfl
    · rename_i hnext
      have hst := (next_eq_some (not_not.1 hnext)).1
      have hput := activateConfig_switch hfind (.inl hst) activator now
      refine .inr ⟨target, rfl, hst, ?_⟩
      simp only [run_bind, run_op, exec, hput, Bool.true_eq_false, if_false, reload]
      split <;> rfl

lemma run_rollback (versionId activator : String) (emergency : Bool) (now : ℤ)
    (s : MemoryPersistentStore) :
    (emergency = false ∧ ∃ target, s.configVersions.find versionId = some target ∧
        target.status = .superseded ∧ ((rollback versionId activator emergency now).run exec s).2 =
          s.switchTo versionId activator now target) ∨ (emergency ∨
          ∀ target, s.configVersions.find versionId = some target → target.status ≠ .superseded) ∧
        ((rollback versionId activator emergency now).run exec s).2 = s := by
  unfold rollback
  cases emergency with
  | true => exact .inr ⟨.inl rfl, rfl⟩
  | false =>
    simp only [Bool.false_eq_true, if_false, false_or, true_and, run_bind, run_op, exec,
      getConfigVersion]
    cases hfind : s.configVersions.find versionId with
    | none => exact .inr ⟨(by intro target h; cases h), rfl⟩
    | some target =>
      dsimp only
      split
      · rename_i hnext
        refine .inr ⟨fun target' h hst => ?_, rfl⟩
        cases h
        rw [hst] at hnext
        cases hnext
      · rename_i hnext
        split
        · rename_i hst
          refine .inr ⟨fun target' h hst' => ?_, rfl⟩
          cases h
          rw [hst] at hst'
          cases hst'
        · rename_i hne
          obtain ⟨st, hst⟩ := Option.ne_none_iff_exists'.1 hnext
          have hsup := (next_eq_some hst).1.resolve_left hne
          have hput := activateConfig_switch hfind (.inr hsup) activator now
          refine .inl ⟨target, rfl, hsup, ?_⟩
          simp only [run_bind, run_op, exec, hput, Bool.true_eq_false, if_false, reload]
          split <;> rfl

end

inductive Write (d : Deps) (s : MemoryPersistentStore) : Request → MemoryPersistentStore → Prop
  | submit {yaml submitter comment validateOnly rateAllowed now versionId}
      (h : Accepted d s yaml validateOnly rateAllowed versionId) :
      Write d s (.submit yaml submitter comment validateOnly rateAllowed now versionId)
        (s.putVersion (submitted d yaml submitter comment now versionId))
  | approve {versionId reviewer comment now existing}
      (found : s.configVersions.find versionId = some existing)
      (other : existing.submitter ≠ reviewer) (st : existing.status = .pending) :
      Write d s (.approve versionId reviewer comment now)
        (s.putVersion (reviewed .approved reviewer comment now existing))
  | reject {versionId reviewer comment now existing}
      (found : s.configVersions.find versionId = some existing)
      (st : existing.status = .pending ∨ existing.status = .approved) :
      Write d s (.reject versionId reviewer comment now)
        (s.putVersion (reviewed .rejected reviewer comment now existing))
  | activate {versionId activator now target}
      (found : s.configVersions.find versionId = some target) (st : target.status = .approved) :
      Write d s (.activate versionId activator now) (s.switchTo versionId activator now target)
  | rollback {versionId activator now target}
      (found : s.configVersions.find versionId = some target) (st : target.status = .superseded) :
      Write d s (.rollback versionId activator false now)
        (s.switchTo versionId activator now target)

lemma atomically_cases (d : Deps) (s : MemoryPersistentStore) (r : Request) :
    atomically d s r = s ∨ Write d s r (atomically d s r) := by
  unfold atomically Request.prog
  cases r with
  | submit yaml submitter comment validateOnly rateAllowed now versionId =>
    rcases run_submit d s yaml submitter comment validateOnly rateAllowed now versionId with
      ⟨hacc, e⟩ | ⟨-, e⟩
    · rw [e]
      exact .inr (.submit hacc)
    · exact .inl e
  | approve versionId reviewer comment now =>
    rcases run_transitionReview versionId reviewer comment .approved now s with
      e | ⟨existing, hfind, hne, hnext, e⟩
    · exact .inl e
    · dsimp only [ControlPlane.approve]
      rw [e]
      exact .inr (.approve hfind hne (next_eq_some hnext).1)
  | reject versionId reviewer comment now =>
    rcases run_transitionReview versionId reviewer comment .rejected now s with
      e | ⟨existing, hfind, -, hnext, e⟩
    · exact .inl e
    · dsimp only [ControlPlane.reject]
      rw [e]
      exact .inr (.reject hfind (next_eq_some hnext).1)
  | activate versionId activator now =>
    rcases run_activate versionId activator now s with e | ⟨target, hfind, hst, e⟩
    · exact .inl e
    · rw [e]
      exact .inr (.activate hfind hst)
  | rollback versionId activator emergency now =>
    rcases run_rollback versionId activator emergency now s with
      ⟨rfl, target, hfind, hst, e⟩ | ⟨-, e⟩
    · rw [e]
      exact .inr (.rollback hfind hst)
    · exact .inl e

/-! ## the calls a request makes -/

/-- reviews write only the two verdicts, submissions only pending versions, and nothing looks at the
rollouts -/
def ConfigCall : StoreCall → Prop
  | .updateConfigStatus _ st _ _ _ => st = .approved ∨ st = .rejected
  | .insertConfigVersion r => r.status = .pending
  | .insertRollout _ | .updateRollout _ | .getRollout _ => False
  | .findActiveRolloutByTarget _ | .listRollouts _ => False
  | _ => True

/-- activations and rollbacks write through `activateConfig` only -/
def ActivationCall : StoreCall → Prop
  | .updateConfigStatus .. | .insertConfigVersion _ => False
  | .insertRollout _ | .updateRollout _ | .getRollout _ => False
  | .findActiveRolloutByTarget _ | .listRollouts _ => False
  | _ => True

lemma ActivationCall.configCall {c : StoreCall} (h : ActivationCall c) : ConfigCall c := by
  cases c <;> first | exact h | exact h.elim

/-- every call of the program is one of these, whatever the store answers -/
abbrev CallsOnly {α : Type} (P : StoreCall → Prop) (past : List ((c : StoreCall) × c.Answer))
    (p : Prog α) : Prop :=
  wp (fun _ c => P c) (fun _ _ => True) past p (fun _ _ => True)

section
variable {past : List ((c : StoreCall) × c.Answer)}

lemma wp_reload (versionId errorMessage : String) :
    CallsOnly ActivationCall past (reload versionId errorMessage) := by
  simp only [reload, wp_bind, wp_op]
  refine ⟨trivial, fun updated _ => ?_⟩
  split <;> trivial

lemma wp_transitionReview {target : ConfigStatus}
    (htarget : target = .approved ∨ target = .rejected) (versionId reviewer comment : String)
    (now : ℤ) :
    CallsOnly ConfigCall past (transitionReview versionId reviewer comment target now) := by
  simp only [transitionReview, wp_bind, wp_op]
  refine ⟨trivial, fun existing _ => ?_⟩
  split
  · trivial
  split
  · trivial
  split
  · trivial
  · simp only [wp_bind, wp_op]
    refine ⟨htarget, fun stored _ => ?_⟩
    split
    · trivial
    · simp only [wp_bind, wp_op]
      refine ⟨trivial, fun updated _ => ?_⟩
      split <;> trivial

lemma wp_submit (d : Deps) (yaml submitter comment : String) (validateOnly rateAllowed : Bool)
    (now : ℤ) (versionId : String) :
    CallsOnly ConfigCall past
      (submit d yaml submitter comment validateOnly rateAllowed now versionId) := by
  simp only [submit]
  split
  · trivial
  · simp only [wp_bind, wp_op]
    refine ⟨trivial, fun existing _ => ?_⟩
    split
    · trivial
    split
    · trivial
    split
    · trivial
    · simp only [wp_bind, wp_op]
      refine ⟨rfl, fun stored _ => ?_⟩
      split <;> trivial

lemma wp_activate (versionId activator : String) (now : ℤ) :
    CallsOnly ActivationCall past (activate versionId activator now) := by
  simp only [activate, wp_bind, wp_op]
  refine ⟨trivial, fun existing _ => ?_⟩
  split
  · trivial
  split
  · trivial
  · simp only [wp_bind, wp_op]
    refine ⟨trivial, fun prev _ => ⟨trivial, fun switched _ => ?_⟩⟩
    split
    · trivial
    · exact wp_reload _ _

lemma wp_rollback (versionId activator : String) (emergency : Bool) (now : ℤ) :
    CallsOnly ActivationCall past (rollback versionId activator emergency now) := by
  simp only [rollback]
  split
  · trivial
  · simp only [wp_bind, wp_op]
    refine ⟨trivial, fun target _ => ?_⟩
    split
    · trivial
    split
    · trivial
    · simp only [wp_bind, wp_op]
      refine ⟨trivial, fun prev _ => ?_⟩
      split
      · trivial
      · simp only [wp_bind, wp_op]
        refine ⟨trivial, fun switched _ => ?_⟩
        split
        · trivial
        · exact wp_reload _ _

lemma wp_prog (d : Deps) (r : Request) : CallsOnly ConfigCall past (r.prog d) := by
  cases r with
  | submit yaml submitter comment validateOnly rateAllowed now versionId => exact wp_submit ..
  | approve versionId reviewer comment now => exact wp_transitionReview (.inl rfl) ..
  | reject versionId reviewer comment now => exact wp_transitionReview (.inr rfl) ..
  | activate versionId activator now =>
    exact wp_weaken (fun _ _ hc => hc.configCall) (wp_activate ..)
  | rollback versionId activator emergency now =>
    exact wp_weaken (fun _ _ hc => hc.configCall) (wp_rollback ..)

end

end AegisGate.ControlPlane
