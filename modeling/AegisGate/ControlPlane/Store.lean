import AegisGate.ControlPlane.ConfigVersion
import AegisGate.ControlPlane.RolloutRecord
import AegisGate.Lib.Proc
import AegisGate.Lib.Table
import Mathlib.Data.List.Sort
import Mathlib.Data.String.Basic

/-!
# The control plane's tables

The part of `MemoryPersistentStore` the control plane uses (`storage/memory_persistent_store.cpp`):
the config versions, the id of the active one, and the rollouts.  Every function below takes the
store's lock for its whole body, so it is one atomic call.

* `insertConfigVersion` … `activateConfig`  the calls of `ConfigServiceCore`;
* `insertRollout` … `listRollouts`  the calls of `RolloutController`;
* `StoreCall`, `exec`  the calls as data, answered by `exec`;
* `Prog`  programs over these calls.

`updateConfigStatus` and `updateRollout` overwrite what is stored without looking at its status;
`activateConfig` is the only call that decides and writes at once.
-/

namespace AegisGate.ControlPlane

open Table

/-- a table of records under their own ids; the order of its rows carries no meaning -/
structure MemoryPersistentStore where
  initialized : Bool := false
  configVersions : Table ConfigVersionRecord.versionId := empty
  activeConfigVersionId : String := ""
  rollouts : Table RolloutRecord.rolloutId := empty

namespace MemoryPersistentStore

def putVersion (s : MemoryPersistentStore) (record : ConfigVersionRecord) :
    MemoryPersistentStore :=
  { s with configVersions := s.configVersions.put record }

def putRollout (s : MemoryPersistentStore) (record : RolloutRecord) : MemoryPersistentStore :=
  { s with rollouts := s.rollouts.put record }

/-! ## config versions -/

def insertConfigVersion (record : ConfigVersionRecord) (s : MemoryPersistentStore) :
    Bool × MemoryPersistentStore :=
  if record.versionId = "" then (false, s)
  else if (s.configVersions.find record.versionId).isSome then (false, s)
  else (true, s.putVersion record)

def reviewed (newStatus : ConfigStatus) (actor comment : String) (timestampMs : ℤ)
    (record : ConfigVersionRecord) : ConfigVersionRecord :=
  if newStatus = .approved ∨ newStatus = .rejected then
    { record with
      status := newStatus
      reviewer := actor
      reviewerComment := comment
      reviewedAt := timestampMs }
  else { record with status := newStatus }

def updateConfigStatus (versionId : String) (newStatus : ConfigStatus) (actor comment : String)
    (timestampMs : ℤ) (s : MemoryPersistentStore) : Bool × MemoryPersistentStore :=
  match s.configVersions.find versionId with
  | none => (false, s)
  | some record =>
    (true, s.putVersion (reviewed newStatus actor comment timestampMs record))

def getConfigVersion (versionId : String) (s : MemoryPersistentStore) :
    Option ConfigVersionRecord :=
  s.configVersions.find versionId

/-- the order of a listing: the newest submission first, the greater id on a tie -/
def newer (a b : ConfigVersionRecord) : Bool :=
  if a.submittedAt ≠ b.submittedAt then decide (b.submittedAt < a.submittedAt)
  else decide (b.versionId < a.versionId)

def ConfigVersionQuery.keeps (q : ConfigVersionQuery) (r : ConfigVersionRecord) : Bool :=
  (q.statuses.isEmpty || r.status ∈ q.statuses) &&
    !(decide (0 < q.sinceMillis) && decide (r.submittedAt < q.sinceMillis))

def listConfigVersions (q : ConfigVersionQuery) (s : MemoryPersistentStore) :
    List ConfigVersionRecord :=
  let all := (s.configVersions.rows.filter (ConfigVersionQuery.keeps q)).insertionSort
    (fun a b => ¬ newer b a)
  let start := if q.pageToken = "" then all
    else (all.dropWhile (·.versionId ≠ q.pageToken)).drop 1
  start.take (if 0 < q.limit then q.limit.toNat else 50)

def getActiveConfig (s : MemoryPersistentStore) : Option ConfigVersionRecord :=
  if s.activeConfigVersionId = "" then none
  else s.configVersions.find s.activeConfigVersionId

def demotePrevious (versionId : String) (activateMs : ℤ) (s : MemoryPersistentStore) :
    Table ConfigVersionRecord.versionId :=
  if s.activeConfigVersionId ≠ "" ∧ s.activeConfigVersionId ≠ versionId then
    match s.configVersions.find s.activeConfigVersionId with
    | none => s.configVersions
    | some prev =>
      s.configVersions.put { prev with status := .superseded, deactivatedAt := activateMs }
  else s.configVersions

/-- an already active version is a no-op success -/
def activateConfig (versionId activator : String) (activateMs : ℤ) (s : MemoryPersistentStore) :
    Bool × MemoryPersistentStore :=
  match s.configVersions.find versionId with
  | none => (false, s)
  | some target =>
    if target.status = .active ∧ s.activeConfigVersionId = versionId then (true, s)
    else if target.status ≠ .approved ∧ target.status ≠ .superseded then (false, s)
    else
      (true, { s with
        configVersions := (s.demotePrevious versionId activateMs).put
          { target with
            status := .active
            activator := activator
            activatedAt := activateMs
            deactivatedAt := 0 }
        activeConfigVersionId := versionId })

/-! ## rollouts -/

def findActiveRolloutByTarget (targetVersionId : String) (s : MemoryPersistentStore) :
    Option RolloutRecord :=
  s.rollouts.rows.find? (fun r => r.targetVersionId = targetVersionId ∧ isActiveStatus r.status)

def insertRollout (record : RolloutRecord) (s : MemoryPersistentStore) :
    Bool × MemoryPersistentStore :=
  if s.initialized = false then (false, s)
  else if record.rolloutId = "" then (false, s)
  else if (s.rollouts.find record.rolloutId).isSome then (false, s)
  else if isActiveStatus record.status ∧
      (s.findActiveRolloutByTarget record.targetVersionId).isSome then (false, s)
  else (true, s.putRollout record)

def contended (record : RolloutRecord) (s : MemoryPersistentStore) : Bool :=
  s.rollouts.rows.any (fun r => r.rolloutId ≠ record.rolloutId ∧
    r.targetVersionId = record.targetVersionId ∧ isActiveStatus r.status)

def updateRollout (record : RolloutRecord) (s : MemoryPersistentStore) :
    Bool × MemoryPersistentStore :=
  if s.initialized = false then (false, s)
  else if (s.rollouts.find record.rolloutId).isNone then (false, s)
  else if isActiveStatus record.status ∧ s.contended record then (false, s)
  else (true, s.putRollout record)

def getRollout (rolloutId : String) (s : MemoryPersistentStore) : Option RolloutRecord :=
  s.rollouts.find rolloutId

/-- the order of a listing: the latest start first, the greater id on a tie -/
def startedLater (a b : RolloutRecord) : Bool :=
  if a.startedAt ≠ b.startedAt then decide (b.startedAt < a.startedAt)
  else decide (b.rolloutId < a.rolloutId)

def listRollouts (q : RolloutQuery) (s : MemoryPersistentStore) : List RolloutRecord :=
  let out := (s.rollouts.rows.filter (q.statuses.isEmpty || ·.status ∈ q.statuses)).insertionSort
      (fun a b => ¬ startedLater b a)
  let page := if q.pageToken = "" then out
    else (out.dropWhile (·.rolloutId ≠ q.pageToken)).drop 1
  page.take (if 0 < q.limit then q.limit.toNat else out.length)

/-! ## what the writes do -/

section
variable {s : MemoryPersistentStore} {versionId : String} {record target : ConfigVersionRecord}
  (st : ConfigStatus) (actor comment : String) (ms : ℤ) (r : ConfigVersionRecord)

lemma insertConfigVersion_cases (record : ConfigVersionRecord) (s : MemoryPersistentStore) :
    s.insertConfigVersion record = (false, s) ∨
      record.versionId ≠ "" ∧ s.configVersions.find record.versionId = none ∧
        s.insertConfigVersion record = (true, s.putVersion record) := by
  unfold insertConfigVersion
  split
  · exact .inl rfl
  · rename_i hid
    split
    · exact .inl rfl
    · rename_i hnew
      exact .inr ⟨hid, by simpa using hnew, rfl⟩

lemma insertConfigVersion_new (hid : record.versionId ≠ "")
    (hnew : s.configVersions.find record.versionId = none) :
    s.insertConfigVersion record = (true, s.putVersion record) := by
  rw [insertConfigVersion, if_neg hid, hnew]
  rfl

lemma updateConfigStatus_found (h : s.configVersions.find versionId = some record)
    (st : ConfigStatus) (actor comment : String) (ms : ℤ) :
    s.updateConfigStatus versionId st actor comment ms =
      (true, s.putVersion (reviewed st actor comment ms record)) := by
  rw [updateConfigStatus, h]

lemma updateConfigStatus_missing (h : s.configVersions.find versionId = none)
    (st : ConfigStatus) (actor comment : String) (ms : ℤ) :
    s.updateConfigStatus versionId st actor comment ms = (false, s) := by
  rw [updateConfigStatus, h]

@[simp] lemma reviewed_versionId : (reviewed st actor comment ms r).versionId = r.versionId := by
  unfold reviewed
  split <;> rfl

@[simp] lemma reviewed_status : (reviewed st actor comment ms r).status = st := by
  unfold reviewed
  split <;> rfl

/-- the target of an activation, as it is stored afterwards -/
def activated (activator : String) (ms : ℤ) (target : ConfigVersionRecord) :
    ConfigVersionRecord :=
  { target with status := .active, activator, activatedAt := ms, deactivatedAt := 0 }

def demoted (ms : ℤ) (prev : ConfigVersionRecord) : ConfigVersionRecord :=
  { prev with status := .superseded, deactivatedAt := ms }

def switchTo (s : MemoryPersistentStore) (versionId activator : String) (ms : ℤ)
    (target : ConfigVersionRecord) : MemoryPersistentStore :=
  { s with
    configVersions := (s.demotePrevious versionId ms).put (activated activator ms target)
    activeConfigVersionId := versionId }

lemma activateConfig_cases (versionId activator : String) (ms : ℤ) (s : MemoryPersistentStore) :
    (s.activateConfig versionId activator ms).2 = s ∨
      ∃ target, s.configVersions.find versionId = some target ∧
        (target.status = .approved ∨ target.status = .superseded) ∧
        s.activateConfig versionId activator ms =
          (true, s.switchTo versionId activator ms target) := by
  unfold activateConfig
  split
  · exact .inl rfl
  · rename_i target htarget
    split
    · exact .inl rfl
    split
    · exact .inl rfl
    · rename_i hst
      rw [not_and_or, not_not, not_not] at hst
      exact .inr ⟨target, htarget, hst, rfl⟩

lemma activateConfig_switch (h : s.configVersions.find versionId = some target)
    (hst : target.status = .approved ∨ target.status = .superseded) (activator : String) (ms : ℤ) :
    s.activateConfig versionId activator ms = (true, s.switchTo versionId activator ms target) := by
  rw [activateConfig, h]
  rcases hst with hst | hst <;> simp [hst, switchTo, activated]

lemma find_switchTo (h : s.configVersions.find versionId = some target) (activator : String)
    (ms : ℤ) (k : String) : (s.switchTo versionId activator ms target).configVersions.find k =
      if k = versionId then some (activated activator ms target)
      else if k = s.activeConfigVersionId ∧ k ≠ "" then (s.configVersions.find k).map (demoted ms)
      else s.configVersions.find k := by
  have hkey : target.versionId = versionId := key_of_find h
  show ((s.demotePrevious versionId ms).put (activated activator ms target)).find k = _
  rw [find_put]
  show (if target.versionId = k then _ else _) = _
  rw [hkey]
  by_cases hk : k = versionId
  · rw [if_pos hk, if_pos hk.symm]
  · rw [if_neg hk, if_neg (Ne.symm hk)]
    unfold demotePrevious
    by_cases hact : k = s.activeConfigVersionId ∧ k ≠ ""
    · obtain ⟨rfl, hne⟩ := hact
      rw [if_pos ⟨hne, hk⟩, if_pos ⟨rfl, hne⟩]
      cases hp : s.configVersions.find s.activeConfigVersionId with
      | none => exact hp
      | some prev =>
        have hkey' : prev.versionId = s.activeConfigVersionId := key_of_find hp
        rw [← hkey']
        exact find_put_self _ (demoted ms prev)
    · split
      · rename_i hold
        split
        · rfl
        · rename_i prev hp
          have hkey' : prev.versionId = s.activeConfigVersionId := key_of_find hp
          refine find_put_ne ?_
          rintro rfl
          exact hact ⟨hkey', hkey' ▸ hold.1⟩
      · rfl

lemma insertRollout_cases (record : RolloutRecord) (s : MemoryPersistentStore) :
    s.insertRollout record = (false, s) ∨
      s.initialized ∧ record.rolloutId ≠ "" ∧ s.rollouts.find record.rolloutId = none ∧
        (isActiveStatus record.status → s.findActiveRolloutByTarget record.targetVersionId = none) ∧
        s.insertRollout record = (true, s.putRollout record) := by
  unfold insertRollout
  split
  · exact .inl rfl
  · rename_i hinit
    split
    · exact .inl rfl
    · rename_i hid
      split
      · exact .inl rfl
      · rename_i hnew
        split
        · exact .inl rfl
        · rename_i hact
          refine .inr ⟨by simpa using hinit, hid, by simpa using hnew, fun ha => ?_, rfl⟩
          simpa [ha] using hact

lemma updateRollout_cases (record : RolloutRecord) (s : MemoryPersistentStore) :
    s.updateRollout record = (false, s) ∨
      s.initialized ∧ (∃ r, s.rollouts.find record.rolloutId = some r) ∧
        (isActiveStatus record.status → s.contended record = false) ∧
        s.updateRollout record = (true, s.putRollout record) := by
  unfold updateRollout
  split
  · exact .inl rfl
  · rename_i hinit
    split
    · exact .inl rfl
    · rename_i hold
      split
      · exact .inl rfl
      · rename_i hact
        refine .inr ⟨by simpa using hinit, ?_, fun ha => ?_, rfl⟩
        · exact Option.isSome_iff_exists.1 (by simpa [Option.isSome_iff_ne_none] using hold)
        · simpa [ha] using hact

end

end MemoryPersistentStore

/-! ## the calls as data -/

inductive StoreCall where
  | insertConfigVersion (record : ConfigVersionRecord)
  | updateConfigStatus (versionId : String) (newStatus : ConfigStatus) (actor comment : String)
      (timestampMs : ℤ)
  | getConfigVersion (versionId : String)
  | listConfigVersions (q : ConfigVersionQuery)
  | getActiveConfig
  | activateConfig (versionId activator : String) (activateMs : ℤ)
  | insertRollout (record : RolloutRecord)
  | updateRollout (record : RolloutRecord)
  | getRollout (rolloutId : String)
  | findActiveRolloutByTarget (targetVersionId : String)
  | listRollouts (q : RolloutQuery)

abbrev StoreCall.Answer : StoreCall → Type
  | .insertConfigVersion _ => Bool
  | .updateConfigStatus .. => Bool
  | .getConfigVersion _ => Option ConfigVersionRecord
  | .listConfigVersions _ => List ConfigVersionRecord
  | .getActiveConfig => Option ConfigVersionRecord
  | .activateConfig .. => Bool
  | .insertRollout _ => Bool
  | .updateRollout _ => Bool
  | .getRollout _ => Option RolloutRecord
  | .findActiveRolloutByTarget _ => Option RolloutRecord
  | .listRollouts _ => List RolloutRecord

def exec : (c : StoreCall) → MemoryPersistentStore → c.Answer × MemoryPersistentStore
  | .insertConfigVersion r, s => s.insertConfigVersion r
  | .updateConfigStatus v st actor comment ms, s => s.updateConfigStatus v st actor comment ms
  | .getConfigVersion v, s => (s.getConfigVersion v, s)
  | .listConfigVersions q, s => (s.listConfigVersions q, s)
  | .getActiveConfig, s => (s.getActiveConfig, s)
  | .activateConfig v activator ms, s => s.activateConfig v activator ms
  | .insertRollout r, s => s.insertRollout r
  | .updateRollout r, s => s.updateRollout r
  | .getRollout i, s => (s.getRollout i, s)
  | .findActiveRolloutByTarget v, s => (s.findActiveRolloutByTarget v, s)
  | .listRollouts q, s => (s.listRollouts q, s)

abbrev Prog (α : Type) := Proc StoreCall StoreCall.Answer α

abbrev ask (c : StoreCall) : Prog c.Answer := Proc.op c

end AegisGate.ControlPlane
