import AegisGate.Autonomy.Appliers

/-!
# The proposal of an approval node

`src/workflow/human_approval_node_handler.cpp`: the callback of a `HumanApproval` node builds a
proposal with what the applier needs to resume the run, masks its strings, and proposes it.

* `scrub`  the filter over every string of a value, if the handler has one;
* `approvalProposal`  what `enqueue` proposes;
* `Deliverable`  the conditions on the filter under which the proposal passes the checks of
  `propose` and those of the applier.
-/

namespace AegisGate.Workflow

open Autonomy

/-! ## masking -/

mutual

/-- the filter on every string; keys and other values stay -/
def maskJson (mask : String → String) : Json → Json
  | .str s => .str (mask s)
  | .obj l => .obj (maskMembers mask l)
  | .arr l => .arr (maskElems mask l)
  | j => j

def maskMembers (mask : String → String) : List (String × Json) → List (String × Json)
  | [] => []
  | (k, j) :: l => (k, maskJson mask j) :: maskMembers mask l

def maskElems (mask : String → String) : List Json → List Json
  | [] => []
  | j :: l => maskJson mask j :: maskElems mask l

end

def scrub (piiFilter : Option (String → String)) (v : Json) : Json :=
  match piiFilter with
  | none => v
  | some mask => maskJson mask v

def scrubStr (piiFilter : Option (String → String)) (s : String) : String :=
  match piiFilter with
  | none => s
  | some mask => mask s

/-! ## the proposal -/

section
variable (piiFilter : Option (String → String)) (sha256 : String → String)
  (runId workflowId dslHash : String) (node : NodeSpec) (context : Json) (nowMs : Int)

def approvalPayload : Json :=
  .obj [("run_id", .str runId), ("workflow_id", .str workflowId), ("node_id", .str node.id),
    ("dsl_hash", .str dslHash), ("tool_id", .str node.toolId), ("arguments", node.arguments),
    ("context", context)]

def approvalTrace : Json :=
  .obj [("source_id", .str runId), ("algorithm_name", .str "workflow_human_approval_v1"),
    ("input_hash_sha256", .str (sha256 (dslHash ++ "|" ++ node.id))),
    ("proposed_at_ms", .int nowMs)]

def approvalProposal : ApprovalProposal where
  id := ""
  source := .workflow
  subject := "workflow:" ++ workflowId ++ "/" ++ node.id
  payload := scrub piiFilter (approvalPayload runId workflowId dslHash node context)
  decisionTrace := scrub piiFilter (approvalTrace sha256 runId dslHash node nowMs)

end

/-! ## its way through the checks -/

/-- the masked proposal has a complete decision trace, and still names its run and workflow -/
structure Deliverable (piiFilter : Option (String → String)) (sha256 : String → String)
    (runId dslHash nodeId : String) : Prop where
  named : runId ≠ ""
  run : scrubStr piiFilter runId = runId
  node : scrubStr piiFilter nodeId ≠ ""
  hash : scrubStr piiFilter dslHash = "" ∨ scrubStr piiFilter dslHash = dslHash
  algorithm : scrubStr piiFilter "workflow_human_approval_v1" ≠ ""
  digest : scrubStr piiFilter (sha256 (dslHash ++ "|" ++ nodeId)) ≠ ""

section
variable {piiFilter : Option (String → String)} {sha256 : String → String}
  {runId workflowId dslHash : String} {node : NodeSpec} {context : Json} {nowMs : Int}

lemma scrub_approvalTrace : scrub piiFilter (approvalTrace sha256 runId dslHash node nowMs) =
    .obj [("source_id", .str (scrubStr piiFilter runId)),
      ("algorithm_name", .str (scrubStr piiFilter "workflow_human_approval_v1")),
      ("input_hash_sha256", .str (scrubStr piiFilter (sha256 (dslHash ++ "|" ++ node.id)))),
      ("proposed_at_ms", .int nowMs)] := by
  cases piiFilter <;> rfl

/-- `propose` accepts the trace when none of its strings is masked away -/
lemma validate_approvalTrace :
    (validateDecisionTrace (scrub piiFilter (approvalTrace sha256 runId dslHash node nowMs))).ok ↔
      scrubStr piiFilter runId ≠ "" ∧ scrubStr piiFilter "workflow_human_approval_v1" ≠ "" ∧
        scrubStr piiFilter (sha256 (dslHash ++ "|" ++ node.id)) ≠ "" := by
  rw [scrub_approvalTrace]
  generalize scrubStr piiFilter runId = a
  generalize scrubStr piiFilter "workflow_human_approval_v1" = b
  generalize scrubStr piiFilter (sha256 (dslHash ++ "|" ++ node.id)) = c
  simp [validateDecisionTrace, missingFields, wrongTypeFields,
    decisionTraceRequiredFields, decisionTraceStringFields, Json.isObject,
    Json.contains, Json.find?, Json.isNumberInteger, List.lookup_cons, isNonEmptyString]

lemma extract_approvalPayload {p : ApprovalProposal}
    (hp : p.payload = scrub piiFilter (approvalPayload runId workflowId dslHash node context)) :
    RunPayload.extract p = if scrubStr piiFilter runId = "" ∨ scrubStr piiFilter node.id = "" then
        .ok (.error "payload missing run_id or node_id")
      else .ok (.ok ⟨scrubStr piiFilter runId, scrubStr piiFilter node.id,
        scrubStr piiFilter dslHash⟩) := by
  unfold RunPayload.extract
  rw [hp]
  cases piiFilter <;> rfl

end

end AegisGate.Workflow
