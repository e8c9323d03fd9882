import Mathlib.Data.Fintype.EquivFin
import Mathlib.Data.List.AList
import AegisGate.Core.Json

/-!
# Autonomy proposals and their queue

`src/observe/autonomy/approval_state.h`, `approval_proposal.cpp`, `approval_queue.cpp`.

* `ApprovalProposal`, `ApprovalProposalRecord`  the runtime view of a proposal and its stored row;
* `validateDecisionTrace`  the required fields of a decision trace;
* `ApprovalQueue`  the cache over the persistent store, with `insert`, `update` and `get`.

`Digest` collects what the functions take from outside: printing, hashing and masking.
-/

namespace AegisGate.Autonomy

inductive ApprovalState where
  | proposed
  | approved
  | applied
  | rejected
  | rolledBack
  deriving DecidableEq, Repr

inductive AutonomySource where
  | costOptimizer
  | autoRecovery
  | banditRouter
  | adaptiveGuard
  | workflow
  deriving DecidableEq, Repr

def ApprovalState.toString : ApprovalState → String
  | proposed => "PROPOSED"
  | approved => "APPROVED"
  | applied => "APPLIED"
  | rejected => "REJECTED"
  | rolledBack => "ROLLED_BACK"

def AutonomySource.toString : AutonomySource → String
  | costOptimizer => "CostOptimizer"
  | autoRecovery => "AutoRecovery"
  | banditRouter => "BanditRouter"
  | adaptiveGuard => "AdaptiveGuard"
  | workflow => "Workflow"

structure ApprovalProposal where
  id : String
  source : AutonomySource := .costOptimizer
  subject : String := ""
  payload : Json := .obj []
  decisionTrace : Json := .obj []
  proposedAtMs : Int := 0
  proposerUserId : String := "system"
  state : ApprovalState := .proposed
  reviewerUserId : String := ""
  reviewedAtMs : Int := 0
  rejectReason : String := ""
  payloadSha256 : String := ""

structure ApprovalProposalRecord where
  id : String
  source : String
  subject : String
  payloadJson : String
  decisionTraceJson : String
  proposedAtMs : Int
  proposerUserId : String
  state : String
  reviewerUserId : String
  reviewedAtMs : Int
  rejectReason : String
  payloadSha256 : String
  deriving DecidableEq

/-- the libraries behind a proposal: `json::dump`, sha256 and `PIIFilter::mask` -/
structure Digest where
  dump : Json → String
  sha256 : String → String
  mask : String → String

/-! ## digests -/

def canonicalise (payload : Json) : Json := payload.canonicalise

variable (dg : Digest)

def computePayloadSha256 (payload : Json) : String :=
  dg.sha256 (dg.dump (canonicalise payload))

def verifyPayloadSha256 (p : ApprovalProposal) : Bool :=
  if p.payloadSha256 = "" then false
  else decide (p.payloadSha256 = computePayloadSha256 dg p.payload)

def toRecord (p : ApprovalProposal) : ApprovalProposalRecord where
  id := p.id
  source := p.source.toString
  subject := p.subject
  payloadJson := dg.dump p.payload
  decisionTraceJson := dg.dump p.decisionTrace
  proposedAtMs := p.proposedAtMs
  proposerUserId := p.proposerUserId
  state := p.state.toString
  reviewerUserId := p.reviewerUserId
  reviewedAtMs := p.reviewedAtMs
  rejectReason := p.rejectReason
  payloadSha256 := p.payloadSha256

/-! ## decision traces -/

structure DecisionTraceValidation where
  ok : Bool
  missingFields : List String
  wrongTypeFields : List String
  deriving DecidableEq, Repr

def decisionTraceRequiredFields : List String :=
  ["source_id", "algorithm_name", "input_hash_sha256", "proposed_at_ms"]

def decisionTraceStringFields : List String :=
  ["source_id", "algorithm_name", "input_hash_sha256"]

def isNonEmptyString : Json → Bool
  | .str s => s != ""
  | _ => false

def missingFields (trace : Json) : List String :=
  decisionTraceRequiredFields.filter (!trace.contains ·)

def wrongTypeFields (trace : Json) : List String :=
  decisionTraceStringFields.filter (fun f =>
    match trace.find? f with
    | none => false
    | some v => !isNonEmptyString v)
  ++ ["proposed_at_ms"].filter (fun f =>
    match trace.find? f with
    | none => false
    | some v => !v.isNumberInteger)
  ++ ["notes"].filter (fun f =>
    match trace.find? f with
    | none => false
    | some v => !v.isString)

def validateDecisionTrace (trace : Json) : DecisionTraceValidation :=
  if !trace.isObject then ⟨false, decisionTraceRequiredFields, []⟩
  else
    let missing := missingFields trace
    let wrong := wrongTypeFields trace
    ⟨missing.isEmpty && wrong.isEmpty, missing, wrong⟩

def maskMember : String × Json → String × Json
  | (k, .str s) => (k, .str (dg.mask s))
  | kv => kv

/-- `maskDecisionTraceInPlace`: the string members at the top level -/
def maskDecisionTrace : Json → Json
  | .obj l => .obj (l.map (maskMember dg))
  | j => j

/-! ## the queue -/

/-- the rows of `approval_proposals_`, by id -/
abbrev ProposalRows := AList (fun _ : String => ApprovalProposalRecord)

def insertApprovalProposal (rows : ProposalRows) (rec : ApprovalProposalRecord) :
    Option ProposalRows :=
  if rec.id = "" then none
  else if (rows.lookup rec.id).isSome then none
  else some (rows.insert rec.id rec)

def updateApprovalProposal (rows : ProposalRows) (rec : ApprovalProposalRecord) :
    Option ProposalRows :=
  if (rows.lookup rec.id).isSome then some (rows.insert rec.id rec) else none

lemma insertApprovalProposal_unused (rows : ProposalRows) (rec : ApprovalProposalRecord)
    (hid : rec.id ≠ "") (hr : rows.lookup rec.id = none) :
    insertApprovalProposal rows rec = some (rows.insert rec.id rec) := by
  unfold insertApprovalProposal
  rw [if_neg hid, hr]
  rfl

/-- `store = none` is the memory-only queue -/
structure ApprovalQueue where
  store : Option ProposalRows
  cache : AList (fun _ : String => ApprovalProposal)

namespace ApprovalQueue

def fresh : ApprovalQueue := ⟨none, ∅⟩

/-- the id of the inserted proposal, empty on failure -/
def insert (dg : Digest) (q : ApprovalQueue) (p : ApprovalProposal) : ApprovalQueue × String :=
  if p.id = "" then (q, "")
  else
    match q.store with
    | some rows =>
      match insertApprovalProposal rows (toRecord dg p) with
      | none => (q, "")
      | some rows' => (⟨some rows', q.cache.insert p.id p⟩, p.id)
    | none =>
      if (q.cache.lookup p.id).isSome then (q, "") else (⟨none, q.cache.insert p.id p⟩, p.id)

def update (dg : Digest) (q : ApprovalQueue) (p : ApprovalProposal) : ApprovalQueue × Bool :=
  if p.id = "" then (q, false)
  else
    match q.store with
    | some rows =>
      match updateApprovalProposal rows (toRecord dg p) with
      | none => (q, false)
      | some rows' => (⟨some rows', q.cache.insert p.id p⟩, true)
    | none => (⟨none, q.cache.insert p.id p⟩, true)

variable (q : ApprovalQueue)

def get (id : String) : Option ApprovalProposal := q.cache.lookup id

/-- what is stored of a proposal's state: in the cache, and in the persistent row -/
def stateOf (id : String) : Option ApprovalState × Option String :=
  ((q.get id).map ApprovalProposal.state,
    (q.store.bind (AList.lookup id)).map ApprovalProposalRecord.state)

lemma exists_unused :
    ∃ id : String, id ≠ "" ∧ q.get id = none ∧ q.store.bind (AList.lookup id) = none := by
  obtain ⟨id, h⟩ := Infinite.exists_notMem_finset
    ("" :: (q.cache.keys ++ (q.store.getD ∅).keys)).toFinset
  simp only [List.mem_toFinset, List.mem_cons, List.mem_append, not_or] at h
  obtain ⟨hid, hc, hs⟩ := h
  refine ⟨id, hid, AList.lookup_eq_none.2 hc, ?_⟩
  cases hq : q.store with
  | none => rfl
  | some rows =>
    rw [hq] at hs
    exact AList.lookup_eq_none.2 hs

lemma insert_unused (dg : Digest) (q : ApprovalQueue) (p : ApprovalProposal) (hid : p.id ≠ "")
    (hc : q.get p.id = none) (hs : q.store.bind (AList.lookup p.id) = none) :
    (q.insert dg p).2 = p.id ∧ (q.insert dg p).1.get p.id = some p := by
  unfold insert
  rw [if_neg hid]
  cases hq : q.store with
  | none =>
    have hc' : q.cache.lookup p.id = none := hc
    simp [hc', get]
  | some rows =>
    have hs' : rows.lookup (toRecord dg p).id = none := by
      rw [hq] at hs
      exact hs
    simp [insertApprovalProposal_unused rows (toRecord dg p) hid hs', get]

end ApprovalQueue

end AegisGate.Autonomy
