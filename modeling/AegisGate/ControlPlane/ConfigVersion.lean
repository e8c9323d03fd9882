import Mathlib.Data.Int.Notation
import Mathlib.Data.Nat.Notation

/-!
# Config versions and their state machine

The record of one submitted configuration (`control_plane/config_version_record.h`) and the table of
the status changes a request may ask for (`control_plane/state_machine.cpp`).

* `ConfigVersionRecord`  one version, with its submitter, reviewer and activator;
* `kTransitions`, `next`  the table, looked up by a linear scan;
* `Documented`  the status changes of a stored version: those of the table, and the
  demotion of the active version when another one is activated.
-/

namespace AegisGate.ControlPlane

inductive ConfigStatus where
  | pending
  | approved
  | rejected
  | active
  | superseded
  deriving DecidableEq, Repr

def configStatusToString : ConfigStatus → String
  | .pending => "PENDING"
  | .approved => "APPROVED"
  | .rejected => "REJECTED"
  | .active => "ACTIVE"
  | .superseded => "SUPERSEDED"

/-- times are Unix epoch milliseconds -/
structure ConfigVersionRecord where
  versionId : String := ""
  contentSha256 : String := ""
  yamlContent : String := ""
  sizeBytes : ℕ := 0
  status : ConfigStatus := .pending
  submitter : String := ""
  submitterComment : String := ""
  submittedAt : ℤ := 0
  reviewer : String := ""
  reviewerComment : String := ""
  reviewedAt : ℤ := 0
  activator : String := ""
  activatedAt : ℤ := 0
  deactivatedAt : ℤ := 0
  deriving DecidableEq, Repr

/-- empty statuses mean every status, `sinceMillis = 0` no lower bound -/
structure ConfigVersionQuery where
  statuses : List ConfigStatus := []
  sinceMillis : ℤ := 0
  limit : ℤ := 50
  pageToken : String := ""

/-! ## the transition table -/

section
variable {source target : ConfigStatus}

inductive ConfigAction where
  | approve
  | reject
  | activate
  | rollbackTo
  deriving DecidableEq, Repr

structure Transition where
  source : ConfigStatus
  action : ConfigAction
  target : ConfigStatus

def kTransitions : List Transition :=
  [⟨.pending, .approve, .approved⟩, ⟨.pending, .reject, .rejected⟩, ⟨.approved, .activate, .active⟩,
   ⟨.approved, .reject, .rejected⟩, ⟨.active, .rollbackTo, .active⟩,
   ⟨.superseded, .rollbackTo, .active⟩]

def next (source : ConfigStatus) (action : ConfigAction) : Option ConfigStatus :=
  (kTransitions.find? (fun t => t.source = source ∧ t.action = action)).map (·.target)

lemma next_eq_some {action : ConfigAction} (h : next source action = some target) :
    match action with
    | .approve => source = .pending ∧ target = .approved
    | .reject => (source = .pending ∨ source = .approved) ∧ target = .rejected
    | .activate => source = .approved ∧ target = .active
    | .rollbackTo => (source = .active ∨ source = .superseded) ∧ target = .active := by
  cases source <;> cases action <;> cases target <;> revert h <;> decide

def Documented (a b : ConfigStatus) : Prop :=
  (a, b) ∈ [(ConfigStatus.pending, ConfigStatus.approved), (.pending, .rejected),
    (.approved, .rejected), (.approved, .active), (.active, .superseded), (.superseded, .active)]

instance : DecidableRel Documented := fun _ _ => inferInstanceAs (Decidable (_ ∈ _))

end

end AegisGate.ControlPlane
