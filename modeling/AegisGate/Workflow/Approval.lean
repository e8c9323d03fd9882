import AegisGate.Autonomy.Proposal
import AegisGate.Lib.Run
import AegisGate.Workflow.Scheduler

/-!
# Human approvals in a workflow run

A run that comes to a `HumanApproval` node pauses.  A reviewer approves a proposal that names the
node, `WorkflowApprovalApplier::applyImpl` applies it, and `WorkflowEngine::resume` executes the rest
of the workflow.  The system here is one run id: its records, every `execute` of it, the resumes in
progress, and the nodes whose proposals were approved and applied.

* `sysStep`  one event: a step of an `execute`, or of a resume, or a proposal applied;
* `Executed`  a worker has the node, or the store has a record of it;
* `GoodStep`  the steps under which approvals are individual: the callback pauses, and a resume
  finds no node waiting but the one its proposal names.

`resume` marks every waiting node as succeeded, not only the one that was approved: with two approval
nodes waiting, `tool_runs_unapproved` shows a tool run without the approval it depends on.
-/

namespace AegisGate.Workflow

open List Autonomy

/-! ## resuming a run -/

/-- the workflow without the nodes that are done -/
def trim (dsl : WorkflowDsl) (done : List String) : WorkflowDsl where
  id := dsl.id
  version := dsl.version
  metadata := dsl.metadata
  nodes := (dsl.nodes.filter (·.id ∉ done)).map (fun n =>
    { n with dependsOn := n.dependsOn.filter (· ∉ done) })

/-- `resume`, after its checks and then after it has listed the node records -/
inductive Resume where
  | checked (node : String) (dsl : WorkflowDsl) (context : Json)
  | marking (node : String) (dsl : WorkflowDsl) (context : Json) (todo : List NodeRun)
      (done : List String)

structure Sys where
  store : Store := {}
  runs : List (Setup × Exec)
  resumes : List Resume := []
  /-- the nodes named by the proposals that were approved and applied -/
  applied : List String := []

inductive SysEvent where
  | run (i : Nat) (e : Event)
  | apply (p : ApprovalProposal)
  | list (i : Nat)
  | mark (i : Nat)
  | reenter (i : Nat) (activeRuns : Int) (autonomyEnabled : Bool)
  /-- a call to the store throws -/
  | fail (i : Nat)

/-- the run, the node and the hash a proposal names; without a run or a node it is refused -/
def payloadTarget (p : ApprovalProposal) :
    Except Json.TypeError (Option (String × String × String)) :=
  if p.payload.isObject = false then .ok none
  else do
    let runId ← p.payload.valueStr "run_id" ""
    let nodeId ← p.payload.valueStr "node_id" ""
    let dslHash ← p.payload.valueStr "dsl_hash" ""
    pure (if runId = "" ∨ nodeId = "" then none else some (runId, nodeId, dslHash))

/-- the records that count as done: a waiting node does, whoever it waits for -/
def NodeRun.counts (r : NodeRun) : Bool :=
  r.status = .succeeded ∨ r.status = .skipped ∨ r.status = .waitingForApproval

section
variable (S : Setup)

/-- `resume` up to the listing of the node records -/
def checkResume (s : Sys) (node : String) (r : RunRecord) : Option Sys :=
  if r.status ≠ .waitingForApproval then none
  else
    match fromJson r.dslJson with
    | none => none
    | some dsl =>
      if canonicalHash S.sha256 dsl ≠ r.dslHash then
        some { s with store := s.store.after (some (.transitionRunStatus .failed)) .returned }
      else
        some { s with
          resumes := s.resumes ++ [.checked node dsl r.contextJson]
          applied := node :: s.applied }

def applyProposal (s : Sys) (p : ApprovalProposal) : Option Sys :=
  if p.state ≠ .approved then none
  else
    match payloadTarget p, s.store.run with
    | .ok (some (runId, nodeId, dslHash)), some r =>
      if runId = r.runId ∧ (dslHash = "" ∨ dslHash = r.dslHash) then checkResume S s nodeId r
      else none
    | _, _ => none

def sysStep (s : Sys) : SysEvent → Option Sys
  | .run i e =>
    (s.runs[i]?).bind (fun r => (step r.1 (r.2, s.store) e).map (fun t =>
      { s with runs := s.runs.set i (r.1, t.1), store := t.2 }))
  | .apply p => applyProposal S s p
  | .list i =>
    match s.resumes[i]? with
    | some (.checked node dsl context) =>
      some { s with resumes := s.resumes.set i (.marking node dsl context
        (s.store.nodeRuns.filter (·.status = .waitingForApproval))
        ((s.store.nodeRuns.filter NodeRun.counts).map (·.nodeId))) }
    | _ => none
  | .mark i =>
    match s.resumes[i]? with
    | some (.marking node dsl context (r :: todo) done) =>
      some { s with
        resumes := s.resumes.set i (.marking node dsl context todo done)
        store := s.store.after (some (.upsertNodeRun { r with status := .succeeded })) .returned }
    | _ => none
  | .reenter i activeRuns autonomyEnabled =>
    match s.resumes[i]? with
    | some (.marking _ dsl context [] done) =>
      let S' := { S with dsl := trim dsl done, context, activeRuns := activeRuns
                         autonomyEnabled := autonomyEnabled }
      some { s with
        resumes := s.resumes.eraseIdx i
        store := s.store.after (some (.transitionRunStatus .running)) .returned
        runs := s.runs ++ [(S', { inDegree := inDegree S'.dsl })] }
    | _ => none
  | .fail i => if i < s.resumes.length then some { s with resumes := s.resumes.eraseIdx i } else none

def start : Sys := { runs := [(S, { inDegree := inDegree S.dsl })] }

end

/-! ## the property -/

section
variable (dsl : WorkflowDsl)

/-- `x` depends on `h`, directly or through other nodes -/
def DependsOn (x h : String) : Prop :=
  Relation.TransGen (fun a b => b ∈ deps dsl a) x h

def Executed (s : Sys) (id : String) : Prop :=
  (∃ r ∈ s.runs, ∃ job ∈ r.2.running, job.node.id = id) ∨ ∃ r ∈ s.store.nodeRuns, r.nodeId = id

/-- the node named by the proposal behind a resume that is about to list the records -/
def named (s : Sys) (i : Nat) : Option String :=
  match s.resumes[i]? with
  | some (.checked node _ _) => some node
  | _ => none

/-- the callback pauses the run, and a resume finds only the named node waiting -/
def Individual (s : Sys) : SysEvent → Prop
  | .run _ e => e.answer ≠ .pause false
  | .list i => ∀ r ∈ s.store.nodeRuns, r.status = .waitingForApproval → named s i = some r.nodeId
  | _ => True

instance (s : Sys) (ev : SysEvent) : Decidable (Individual s ev) :=
  match ev with
  | .run _ e => inferInstanceAs (Decidable (e.answer ≠ .pause false))
  | .list i => inferInstanceAs (Decidable (∀ r ∈ s.store.nodeRuns,
      r.status = .waitingForApproval → named s i = some r.nodeId))
  | .apply _ | .mark _ | .reenter _ _ _ | .fail _ => inferInstanceAs (Decidable True)

def GoodStep (S : Setup) (s t : Sys) : Prop := ∃ ev, Individual s ev ∧ sysStep S s ev = some t

/-! ## released nodes -/

def isApproval (id : String) : Prop := (byId dsl id).type = .humanApproval

/-- every approval the node depends on was applied -/
def Cleared (applied : List String) (x : String) : Prop :=
  ∀ h, isApproval dsl h → DependsOn dsl x h → h ∈ applied

/-- … and its own, if it is one -/
def Released (applied : List String) (x : String) : Prop :=
  Cleared dsl applied x ∧ (isApproval dsl x → x ∈ applied)

end

section
variable {D : WorkflowDsl} {applied applied' gone : List String} {x : String}

lemma Cleared.mono (hsub : ∀ h ∈ applied, h ∈ applied') (hx : Cleared D applied x) :
    Cleared D applied' x := fun h ha hd => hsub h (hx h ha hd)

lemma Released.mono (hsub : ∀ h ∈ applied, h ∈ applied') (hx : Released D applied x) :
    Released D applied' x := ⟨hx.1.mono hsub, fun ha => hsub x (hx.2 ha)⟩

lemma cleared_of_deps (hdeps : ∀ d ∈ deps D x, Released D applied d) : Cleared D applied x := by
  intro h ha hdep
  obtain ⟨d, hd, hrest⟩ := Relation.TransGen.head'_iff.1 hdep
  obtain ⟨hcleared, hself⟩ := hdeps d hd
  rcases Relation.reflTransGen_iff_eq_or_transGen.1 hrest with rfl | hrest
  · exact hself ha
  · exact hcleared h ha hrest

/-! ## trimmed workflows -/

lemma notMem_of_mem_trim (h : x ∈ ids (trim D gone)) : x ∉ gone := by
  obtain ⟨n, hn, rfl⟩ := mem_map.1 h
  obtain ⟨m, hm, rfl⟩ := mem_map.1 hn
  simpa using (mem_filter.1 hm).2

lemma mem_deps_trim {d : String} (hx : x ∉ gone) (hd : d ∈ deps D x) :
    d ∈ gone ∨ d ∈ deps (trim D gone) x := by
  by_cases hg : d ∈ gone
  · exact .inl hg
  · obtain ⟨n, hn, hid, hdn⟩ := mem_deps.1 hd
    refine .inr (mem_deps.2 ⟨{ n with dependsOn := n.dependsOn.filter (· ∉ gone) }, ?_, hid, ?_⟩)
    · exact mem_map.2 ⟨n, mem_filter.2 ⟨hn, by simpa [hid] using hx⟩, rfl⟩
    · exact mem_filter.2 ⟨hdn, by simpa using hg⟩

lemma type_trim (hx : x ∉ gone) : (byId (trim D gone) x).type = (byId D x).type := by
  have hfind : (trim D gone).nodes.reverse.find? (·.id = x)
      = (D.nodes.reverse.find? (·.id = x)).map (fun n =>
        { n with dependsOn := n.dependsOn.filter (· ∉ gone) }) := by
    have hp : ∀ n : NodeSpec, decide (decide (n.id ∉ gone) ∧ decide (n.id = x))
        = decide (n.id = x) := by
      intro n
      by_cases hn : n.id = x
      · simp [hn, hx]
      · simp [hn]
    simp only [trim, ← map_reverse, ← filter_reverse, find?_map, find?_filter,
      Function.comp_def, hp]
  rw [byId, byId, hfind]
  cases D.nodes.reverse.find? (·.id = x) with
  | none | some n => rfl

lemma trim_nil : (trim D []).nodes = D.nodes := by
  simp [trim]

lemma deps_trim {d : String} (hd : d ∈ deps (trim D gone) x) : d ∈ deps D x ∧ d ∉ gone := by
  obtain ⟨n, hn, rfl, hdn⟩ := mem_deps.1 hd
  obtain ⟨m, hm, rfl⟩ := mem_map.1 hn
  obtain ⟨hdm, hnot⟩ := mem_filter.1 hdn
  exact ⟨mem_deps.2 ⟨m, (mem_filter.1 hm).1, rfl, hdm⟩, by simpa using hnot⟩

lemma validateNoCycle_trim (h : validateNoCycle D) : validateNoCycle (trim D gone) := by
  obtain ⟨W, hW, hall⟩ := validateNoCycle_ordered D h
  have hids : ids (trim D gone) = (ids D).filter (· ∉ gone) := by
    simp only [ids, trim, map_map, filter_map, Function.comp_def]
  refine validateNoCycle_of_ordered (trim D gone) (W := W.filter (· ∉ gone)) ?_ ?_ ?_
  · rw [hids]
    exact (validateNoCycle_nodup D h).filter _
  · refine hW.filter _ (fun x _ d hd => ?_)
    obtain ⟨hd, hnot⟩ := deps_trim hd
    exact ⟨hd, by simpa using hnot⟩
  · intro id
    rw [hids, mem_filter, mem_filter, hall]

end

/-! ## one `execute` -/

/-- an approval node is never past its callback: that would need a callback that does not pause -/
structure JobOk (S : Setup) (job : Job) : Prop where
  node : job.node = byId S.dsl job.node.id
  mem : job.node.id ∈ ids S.dsl
  typed : Typed job.node job.pc
  unapproved : job.pc ≠ .approved
  ended : job.pc = .finish true → job.node.type ≠ .humanApproval

structure RunOk (D : WorkflowDsl) (applied : List String) (S : Setup) (x : Exec) : Prop where
  trimmed : ∃ gone, (∀ id ∈ gone, Released D applied id) ∧ S.dsl.nodes = (trim D gone).nodes
  books : ∃ done lost stalled, Books S x done lost stalled ∧ ∀ id ∈ done, Released D applied id
  jobs : ∀ job ∈ x.running, JobOk S job

lemma graph_congr {A B : WorkflowDsl} (h : A.nodes = B.nodes) :
    ids A = ids B ∧ deps A = deps B ∧ byId A = byId B := by
  refine ⟨?_, ?_, ?_⟩
  · rw [ids, ids, h]
  · funext id
    rw [deps, deps, h]
  · funext id
    rw [byId, byId, h]

section
variable {D : WorkflowDsl} {applied applied' : List String} {S : Setup} {st : Store}
  {x x' : Exec} {e : Event} {job : Job}

lemma RunOk.mono (hsub : ∀ h ∈ applied, h ∈ applied') (hx : RunOk D applied S x) :
    RunOk D applied' S x := by
  obtain ⟨gone, hgone, hnodes⟩ := hx.trimmed
  obtain ⟨done, lost, stalled, hb, hdone⟩ := hx.books
  exact ⟨⟨gone, fun id hid => (hgone id hid).mono hsub, hnodes⟩,
    ⟨done, lost, stalled, hb, fun id hid => (hdone id hid).mono hsub⟩, hx.jobs⟩

lemma RunOk.cleared (hx : RunOk D applied S x) (hjob : job ∈ x.running) :
    Cleared D applied job.node.id := by
  obtain ⟨gone, hgone, hnodes⟩ := hx.trimmed
  obtain ⟨done, lost, stalled, hb, hdone⟩ := hx.books
  obtain ⟨hids, hdeps, -⟩ := graph_congr hnodes
  have hs := (hb.waiting (.inl (ne_nil_of_mem hjob))).2
  have hready := hs.frontier.ready job.node.id (by simp; exact .inl ⟨job, hjob, rfl⟩)
  have hkept : job.node.id ∉ gone := by
    have hmem := (hx.jobs job hjob).mem
    rw [hids] at hmem
    exact notMem_of_mem_trim hmem
  refine cleared_of_deps fun d hd => ?_
  rcases mem_deps_trim hkept hd with hd | hd
  · exact hgone d hd
  · rw [← hdeps] at hd
    exact hdone d (Topo.remaining_eq_zero.1 hready d hd)

lemma RunOk.node_type (hx : RunOk D applied S x) (hjob : job ∈ x.running) :
    job.node.type = (byId D job.node.id).type := by
  obtain ⟨gone, -, hnodes⟩ := hx.trimmed
  obtain ⟨hids, -, hbyId⟩ := graph_congr hnodes
  have hok := hx.jobs job hjob
  have hkept : job.node.id ∉ gone := by
    have hmem := hok.mem
    rw [hids] at hmem
    exact notMem_of_mem_trim hmem
  rw [← type_trim hkept, ← hbyId, ← hok.node]

lemma RunOk.released (hx : RunOk D applied S x) (hjob : job ∈ x.running)
    (ht : job.node.type ≠ .humanApproval) : Released D applied job.node.id :=
  ⟨hx.cleared hjob, fun happ => absurd ((hx.node_type hjob).trans happ) ht⟩

lemma proceed_unapproved {n : NodeSpec} {fl fl' : Flags} {pc pc' : Pc} {a : Answer}
    (ha : a ≠ .pause false) (ht : Typed n pc) (hne : pc ≠ .approved)
    (hfin : pc = .finish true → n.type ≠ .humanApproval)
    (h : proceed S n fl a pc = (fl', some pc')) :
    pc' ≠ .approved ∧ (pc' = .finish true → n.type ≠ .humanApproval) := by
  cases pc with
  | start =>
    cases h
    split <;> simp
  | entered =>
    simp only [proceed] at h
    split at h <;> cases h
    · simp
    · simp
    · next hn _ => exact ⟨by simp, fun _ => hn⟩
  | askApproval =>
    simp only [proceed] at h
    cases h
    simp
  | approved => exact absurd rfl hne
  | attempt k err =>
    cases h
    split <;> simp
  | callTool k =>
    simp only [proceed] at h
    split at h
    · cases h
    · unfold toolNext at h
      split at h <;> cases h <;> simp
  | toolOk k output =>
    cases h
    have hn : n.type = .tool := ht
    simp [hn]
  | finish advance =>
    cases h
    exact ⟨by simp, hfin⟩
  | _ =>
    cases h
    simp

lemma RunOk.step (hx : RunOk D applied S x) (ha : e.answer ≠ .pause false)
    (hm : Moves S st x e x') : RunOk D applied S x' := by
  obtain ⟨done, lost, stalled, hb, hdone⟩ := hx.books
  refine ⟨hx.trimmed, ?_, ?_⟩
  · obtain ⟨done', lost', stalled', hb', hl⟩ := hm.books hb
    refine ⟨done', lost', stalled', hb', ?_⟩
    rcases hl.done with rfl | ⟨job, hjob, hpc, rfl⟩
    · exact hdone
    · exact forall_mem_cons.2 ⟨hx.released hjob ((hx.jobs job hjob).ended hpc), hdone⟩
  · refine hm.jobs hx.jobs (fun id hid => ?_) ?_
    · obtain ⟨hid', hmem⟩ := mem_nodes_of_queue hb hid
      refine ⟨?_, ?_, trivial, by simp, by simp⟩
      · rw [hid']
      · exact mem_map_of_mem hmem
    · intro job hjob fl pc _ _ _ hrun
      have hok := hx.jobs job hjob
      have htyped := runBody_typed hok.typed hrun
      obtain ⟨hun, hend⟩ := proceed_unapproved ha hok.typed hok.unapproved hok.ended
        (proceed_of_runBody hrun)
      exact ⟨hok.node, hok.mem, htyped, hun, hend⟩

end

/-! ## the records -/

structure RecordOk (D : WorkflowDsl) (applied : List String) (r : NodeRun) : Prop where
  cleared : Cleared D applied r.nodeId
  released : r.status = .succeeded ∨ r.status = .skipped → Released D applied r.nodeId

section
variable {D : WorkflowDsl} {applied applied' : List String} {S : Setup} {st : Store}
  {x : Exec} {e : Event} {r y : NodeRun} {c : Option Call} {a : Answer} {pc : Pc} {n : NodeSpec}

lemma RecordOk.mono (hsub : ∀ h ∈ applied, h ∈ applied') (hr : RecordOk D applied r) :
    RecordOk D applied' r :=
  ⟨hr.cleared.mono hsub, fun h => (hr.released h).mono hsub⟩

lemma mem_upsertNodeRun {l : List NodeRun} (h : y ∈ upsertNodeRun r l) : y = r ∨ y ∈ l := by
  induction l with
  | nil => exact .inl (mem_singleton.1 h)
  | cons z l ih =>
    rw [upsertNodeRun] at h
    split at h
    · rcases mem_cons.1 h with rfl | h
      · exact .inl rfl
      · exact .inr (mem_cons_of_mem z h)
    · rcases mem_cons.1 h with rfl | h
      · exact .inr mem_cons_self
      · exact (ih h).imp_right (mem_cons_of_mem z)

lemma nodeRuns_after (h : y ∈ (st.after c a).nodeRuns) :
    y ∈ st.nodeRuns ∨ c = some (.upsertNodeRun y) := by
  unfold Store.after at h
  split at h
  · exact .inl h
  · exact .inl h
  · next r =>
    rcases mem_upsertNodeRun h with rfl | h
    · exact .inr rfl
    · exact .inl h
  · exact .inl h

lemma run_after {r : RunRecord} (h : (st.after c a).run = some r) :
    (∃ r', st.run = some r' ∧ r.dslJson = r'.dslJson ∧ r.dslHash = r'.dslHash) ∨
      st.run = none ∧ c = some (.createRun r) := by
  unfold Store.after at h
  split at h
  · next r' =>
    cases hrun : st.run with
    | none =>
      simp only [hrun, Option.none_or] at h
      cases h
      exact .inr ⟨rfl, rfl⟩
    | some r0 =>
      simp only [hrun, Option.some_or] at h
      cases h
      exact .inl ⟨r, rfl, rfl, rfl⟩
  · obtain ⟨r', hr', rfl⟩ := Option.map_eq_some_iff.1 h
    exact .inl ⟨r', hr', rfl, rfl⟩
  · exact .inl ⟨r, h, rfl, rfl⟩
  · exact .inl ⟨r, h, rfl, rfl⟩

lemma isSome_run_after (h : st.run.isSome) : (st.after c a).run.isSome := by
  unfold Store.after
  split
  · simp
  · simpa using h
  · exact h
  · exact h

lemma asks_settled (ht : Typed n pc) (hne : pc ≠ .approved)
    (h : asks S n pc = some (.upsertNodeRun r)) (hs : r.status = .succeeded ∨ r.status = .skipped) :
    n.type ≠ .humanApproval := by
  cases pc with
  | start => cases h
  | entered =>
    simp only [asks] at h
    split at h <;> cases h
    · rcases hs with hs | hs <;> cases hs
    · next hn _ => exact hn
  | askApproval =>
    simp only [asks] at h
    split at h <;> cases h
  | approved => exact absurd rfl hne
  | attempt k err => cases h
  | callTool k =>
    simp only [asks] at h
    split at h
    · cases h
    · split at h <;> cases h
  | toolOk k output =>
    have hn : n.type = .tool := ht
    rw [hn]
    exact NodeType.noConfusion
  | finish advance => cases h
  | _ =>
    cases h
    rcases hs with hs | hs <;> cases hs

lemma callOf_upsert (h : callOf S x e = some (.upsertNodeRun r)) :
    ∃ job ∈ x.running, asks S job.node job.pc = some (.upsertNodeRun r) := by
  cases e with
  | node i a =>
    obtain ⟨job, hjob, hask⟩ := Option.bind_eq_some_iff.1 h
    exact ⟨job, mem_of_getElem? hjob, hask⟩
  | main a =>
    simp only [callOf, mainAsks] at h
    split at h <;> cases h
  | dispatch order | take | straggler => cases h

lemma asks_ne_createRun {r : RunRecord} : asks S n pc ≠ some (.createRun r) := by
  intro h
  rcases asks_cases h with ⟨_, hc, -⟩ | ⟨hc, -⟩ | ⟨_, _, hc, -⟩ <;> cases hc

lemma callOf_createRun {r : RunRecord} (h : callOf S x e = some (.createRun r)) :
    r = runRecord S ∧ x.phase = .creating := by
  cases e with
  | node i a =>
    obtain ⟨job, hjob, hask⟩ := Option.bind_eq_some_iff.1 h
    exact absurd hask asks_ne_createRun
  | main a =>
    simp only [callOf, mainAsks] at h
    split at h <;> cases h
    exact ⟨rfl, ‹_›⟩
  | dispatch order | take | straggler => cases h

lemma RunOk.record (hx : RunOk D applied S x) (h : callOf S x e = some (.upsertNodeRun r)) :
    RecordOk D applied r := by
  obtain ⟨job, hjob, hask⟩ := callOf_upsert h
  have hok := hx.jobs job hjob
  have hid := asks_nodeId hask
  refine ⟨hid ▸ hx.cleared hjob, fun hs => ?_⟩
  rw [hid]
  exact hx.released hjob (asks_settled hok.typed hok.unapproved hask hs)

end

/-! ## the system -/

def ResumeOk (D : WorkflowDsl) (applied : List String) : Resume → Prop
  | .checked node dsl _ => dsl.nodes = D.nodes ∧ node ∈ applied
  | .marking _ dsl _ todo done => dsl.nodes = D.nodes
      ∧ (∀ r ∈ todo, Released D applied r.nodeId) ∧ ∀ id ∈ done, Released D applied id

structure SysInv (D : WorkflowDsl) (s : Sys) : Prop where
  runs : ∀ r ∈ s.runs, RunOk D s.applied r.1 r.2 ∧ (r.1.dsl = D ∨ s.store.run.isSome)
  records : ∀ r ∈ s.store.nodeRuns, RecordOk D s.applied r
  run : ∀ r, s.store.run = some r → r.dslJson = toJson D
  resumes : ∀ q ∈ s.resumes, ResumeOk D s.applied q ∧ s.store.run.isSome

section
variable {D : WorkflowDsl} {S : Setup} {s t : Sys}

lemma ResumeOk.mono {applied applied' : List String} {q : Resume}
    (hsub : ∀ h ∈ applied, h ∈ applied') (hq : ResumeOk D applied q) : ResumeOk D applied' q := by
  cases q with
  | checked node dsl context => exact ⟨hq.1, hsub node hq.2⟩
  | marking node dsl context todo done =>
    exact ⟨hq.1, fun r hr => (hq.2.1 r hr).mono hsub, fun id hid => (hq.2.2 id hid).mono hsub⟩

section
variable (hs : SysInv D s) {i : Nat}
include hs

lemma SysInv.after {c : Option Call} {a : Answer}
    (hrec : ∀ r, c = some (.upsertNodeRun r) → RecordOk D s.applied r)
    (hcreate : ∀ r, c = some (.createRun r) → s.store.run = none → r.dslJson = toJson D) :
    SysInv D { s with store := s.store.after c a } where
  runs r hr := ⟨(hs.runs r hr).1, (hs.runs r hr).2.imp_right isSome_run_after⟩
  records r hr := by
    rcases nodeRuns_after hr with hr | hc
    · exact hs.records r hr
    · exact hrec r hc
  run r hr := by
    rcases run_after hr with ⟨r', hr', he, -⟩ | ⟨hnone, hc⟩
    · rw [he]
      exact hs.run r' hr'
    · exact hcreate r hc hnone
  resumes q hq := ⟨(hs.resumes q hq).1, isSome_run_after (hs.resumes q hq).2⟩

lemma SysInv.run_step {e : Event} (ha : e.answer ≠ .pause false)
    (h : sysStep S s (.run i e) = some t) : SysInv D t := by
  obtain ⟨r, hr, h⟩ := Option.bind_eq_some_iff.1 h
  obtain ⟨⟨x', st'⟩, hstep, rfl⟩ := Option.map_eq_some_iff.1 h
  have hmem : r ∈ s.runs := mem_of_getElem? hr
  obtain ⟨hm, rfl⟩ := moves_of_step hstep
  obtain ⟨hok, hdsl⟩ := hs.runs r hmem
  have hafter := hs.after (c := callOf r.1 r.2 e) (a := e.answer) (fun _ hc => hok.record hc)
    (fun rr hc hnone => by
      rw [(callOf_createRun hc).1]
      rcases hdsl with hdsl | hsome
      · rw [runRecord, hdsl]
      · rw [hnone] at hsome
        cases hsome)
  refine ⟨fun q hq => ?_, hafter.records, hafter.run, hafter.resumes⟩
  rcases mem_or_eq_of_mem_set hq with hq | rfl
  · exact hafter.runs q hq
  · exact ⟨hok.step ha hm, (hafter.runs r hmem).2⟩

lemma SysInv.apply_step {p : ApprovalProposal}
    (h : sysStep S s (.apply p) = some t) : SysInv D t := by
  simp only [sysStep, applyProposal] at h
  split at h
  · cases h
  split at h
  case h_2 => cases h
  case h_1 runId nodeId dslHash r hpay hrun =>
    split at h
    case isFalse => cases h
    case isTrue =>
      unfold checkResume at h
      split at h
      · cases h
      split at h
      · cases h
      next dsl hdsl =>
      split at h
      · cases h
        exact hs.after nofun nofun
      · cases h
        have hsub : ∀ h ∈ s.applied, h ∈ nodeId :: s.applied :=
          fun h hh => mem_cons_of_mem nodeId hh
        have hnodes : dsl.nodes = D.nodes := nodes_of_fromJson (hs.run r hrun ▸ hdsl)
        refine ⟨fun q hq => ⟨(hs.runs q hq).1.mono hsub, (hs.runs q hq).2⟩,
          fun q hq => (hs.records q hq).mono hsub, hs.run, fun q hq => ?_⟩
        rcases mem_append.1 hq with hq | hq
        · exact ⟨(hs.resumes q hq).1.mono hsub, (hs.resumes q hq).2⟩
        · rw [mem_singleton.1 hq]
          exact ⟨⟨hnodes, mem_cons_self⟩, by rw [hrun]; rfl⟩

lemma SysInv.list_step (hind : Individual s (.list i))
    (h : sysStep S s (.list i) = some t) : SysInv D t := by
  simp only [sysStep] at h
  split at h
  case h_2 => cases h
  case h_1 node dsl context hget =>
    cases h
    have hmem := mem_of_getElem? hget
    obtain ⟨⟨hnodes, happ⟩, hrun⟩ := hs.resumes _ hmem
    have hwait : ∀ r ∈ s.store.nodeRuns, r.status = .waitingForApproval →
        Released D s.applied r.nodeId := by
      intro r hr hst
      refine ⟨(hs.records r hr).cleared, fun _ => ?_⟩
      have hname : named s i = some r.nodeId := hind r hr hst
      rw [named, hget] at hname
      cases hname
      exact happ
    refine ⟨hs.runs, hs.records, hs.run, fun q hq => ?_⟩
    rcases mem_or_eq_of_mem_set hq with hq | rfl
    · exact hs.resumes q hq
    · refine ⟨⟨hnodes, fun r hr => ?_, fun id hid => ?_⟩, hrun⟩
      · obtain ⟨hr, hst⟩ := mem_filter.1 hr
        exact hwait r hr (by simpa using hst)
      · obtain ⟨r, hr, rfl⟩ := mem_map.1 hid
        obtain ⟨hr, hc⟩ := mem_filter.1 hr
        have hc' : r.status = .succeeded ∨ r.status = .skipped ∨ r.status = .waitingForApproval := by
          simpa [NodeRun.counts] using hc
        rcases hc' with hst | hst | hst
        · exact (hs.records r hr).released (.inl hst)
        · exact (hs.records r hr).released (.inr hst)
        · exact hwait r hr hst

lemma SysInv.mark_step (h : sysStep S s (.mark i) = some t) : SysInv D t := by
  simp only [sysStep] at h
  split at h
  case h_2 => cases h
  case h_1 node dsl context r todo done hget =>
    cases h
    obtain ⟨⟨hnodes, htodo, hdone⟩, hrun⟩ := hs.resumes _ (mem_of_getElem? hget)
    have hr := htodo r mem_cons_self
    have hafter := hs.after (c := some (.upsertNodeRun { r with status := .succeeded }))
      (a := .returned) (fun _ hc => by cases hc; exact ⟨hr.1, fun _ => hr⟩)
      nofun
    refine ⟨hafter.runs, hafter.records, hafter.run, fun q hq => ?_⟩
    rcases mem_or_eq_of_mem_set hq with hq | rfl
    · exact hafter.resumes q hq
    · exact ⟨⟨hnodes, fun r hr => htodo r (mem_cons_of_mem _ hr), hdone⟩, isSome_run_after hrun⟩

lemma SysInv.reenter_step {activeRuns : Int} {enabled : Bool}
    (h : sysStep S s (.reenter i activeRuns enabled) = some t) : SysInv D t := by
  simp only [sysStep] at h
  split at h
  case h_2 => cases h
  case h_1 node dsl context done hget =>
    cases h
    obtain ⟨⟨hnodes, -, hdone⟩, hrun⟩ := hs.resumes _ (mem_of_getElem? hget)
    have hafter := hs.after (c := some (.transitionRunStatus .running)) (a := .returned)
      nofun nofun
    refine ⟨fun q hq => ?_, hafter.records, hafter.run,
      fun q hq => hafter.resumes q (mem_of_mem_eraseIdx hq)⟩
    rcases mem_append.1 hq with hq | hq
    · exact hafter.runs q hq
    · rw [mem_singleton.1 hq]
      refine ⟨⟨⟨done, hdone, ?_⟩, ⟨[], [], [], .fresh rfl rfl rfl rfl rfl, by simp⟩, by simp⟩,
        .inr (isSome_run_after hrun)⟩
      simp only [trim, hnodes]

lemma SysInv.step (h : GoodStep S s t) : SysInv D t := by
  obtain ⟨ev, hind, hstep⟩ := h
  cases ev with
  | run i e => exact hs.run_step hind hstep
  | apply p => exact hs.apply_step hstep
  | list i => exact hs.list_step hind hstep
  | mark i => exact hs.mark_step hstep
  | reenter i activeRuns enabled => exact hs.reenter_step hstep
  | fail i =>
    simp only [sysStep] at hstep
    split at hstep
    · cases hstep
      exact ⟨hs.runs, hs.records, hs.run, fun q hq => hs.resumes q (mem_of_mem_eraseIdx hq)⟩
    · cases hstep

end

lemma SysInv.init (S : Setup) : SysInv S.dsl (start S) where
  runs r hr := by
    rw [mem_singleton.1 hr]
    exact ⟨⟨⟨[], by simp, trim_nil.symm⟩, ⟨[], [], [], .fresh rfl rfl rfl rfl rfl, by simp⟩,
      by simp⟩, .inl rfl⟩
  records r hr := by cases hr
  run r hr := by cases hr
  resumes q hq := by cases hq

end

/-- When the callback pauses and no resume finds a node waiting that its proposal does not name, a
node is executed only after a proposal was approved and applied for each approval node it depends
on. -/
theorem approvals_individual {S : Setup} {s : Sys} (hrun : Run.Reach (GoodStep S) (start S) s)
    {x h : String} (happ : isApproval S.dsl h) (hdep : DependsOn S.dsl x h)
    (hex : Executed s x) : h ∈ s.applied := by
  have hinv : SysInv S.dsl s :=
    Run.Reach.inv (fun _ _ hs hst => hs.step hst) hrun (SysInv.init S)
  rcases hex with ⟨r, hr, job, hjob, rfl⟩ | ⟨r, hr, rfl⟩
  · exact (hinv.runs r hr).1.cleared hjob h happ hdep
  · exact (hinv.records r hr).cleared h happ hdep

/-! ## two runs -/

/-- a run whose steps all satisfy `P` -/
def runSys (P : Sys → SysEvent → Prop) [∀ s ev, Decidable (P s ev)] (S : Setup) :
    Sys → List SysEvent → Option Sys
  | s, [] => some s
  | s, ev :: evs => if P s ev then (sysStep S s ev).bind (runSys P S · evs) else none

lemma reach_of_runSys {S : Setup} (evs : List SysEvent) :
    ∀ {s t}, runSys Individual S s evs = some t → Run.Reach (GoodStep S) s t := by
  refine fun {s t} h => Run.reach_of_play (fun _ => rfl) ?_ evs h
  intro s ev evs t h
  simp only [runSys] at h
  split at h
  · next hind =>
    obtain ⟨u, hu, hrest⟩ := Option.bind_eq_some_iff.1 h
    exact ⟨u, ⟨ev, hind, hu⟩, hrest⟩
  · cases h

def reviewed (nodes : List NodeSpec) : Setup :=
  { sha256 := fun _ => "", runId := "r", dsl := { id := "w", nodes }, context := .null }

def approvalOf (node : String) : ApprovalProposal :=
  { id := "p", source := .workflow, state := .approved
    payload := .obj [("run_id", .str "r"), ("node_id", .str node)] }

def closingEvents (i : Nat) : List SysEvent :=
  [.run i (.main .quiet), .run i (.main .quiet), .run i (.main .quiet), .run i (.main .returned)]

def openingEvents (i : Nat) (order : List String) : List SysEvent :=
  [.run i (.main .quiet), .run i (.main .returned), .run i (.main .returned),
    .run i (.dispatch order)]

def toolStarts (i : Nat) : List SysEvent :=
  [.run i .take, .run i (.node 0 .quiet), .run i (.node 0 .quiet), .run i (.node 0 .quiet),
    .run i (.node 0 .returned)]

def oneApproval : Setup := reviewed
  [{ id := "a", type := .humanApproval, toolId := "reviewer" },
    { id := "x", toolId := "deploy", dependsOn := ["a"] }]

def oneApprovalEvents : List SysEvent :=
  openingEvents 0 ["a"]
    ++ [.run 0 .take, .run 0 (.node 0 .quiet), .run 0 (.node 0 .returned),
      .run 0 (.node 0 (.pause true)), .run 0 (.node 0 .quiet)]
    ++ closingEvents 0
    ++ [.apply (approvalOf "a"), .list 0, .mark 0, .reenter 0 1 true]
    ++ openingEvents 1 ["x"] ++ toolStarts 1

theorem approvals_individual_one :
    ∃ s, runSys Individual oneApproval (start oneApproval) oneApprovalEvents = some s
      ∧ Executed s "x" ∧ "a" ∈ s.applied := by
  have happ : isApproval oneApproval.dsl "a" := rfl
  have hdep : DependsOn oneApproval.dsl "x" "a" := Relation.TransGen.single (by decide)
  refine ⟨_, rfl, ?_, ?_⟩
  · exact .inr ⟨⟨"x", 1, .running, "", ""⟩, by decide, rfl⟩
  · exact approvals_individual (reach_of_runSys oneApprovalEvents rfl) happ hdep
      (.inr ⟨⟨"x", 1, .running, "", ""⟩, by decide, rfl⟩)

def twoApprovals : Setup := reviewed
  [{ id := "a", type := .humanApproval, toolId := "reviewer" },
    { id := "b", type := .humanApproval, toolId := "reviewer" },
    { id := "x", toolId := "deploy", dependsOn := ["b"] }]

/-- both approval nodes come to wait, and then `a` is approved -/
def twoApprovalsEvents : List SysEvent :=
  openingEvents 0 ["a", "b"]
    ++ [.run 0 .take, .run 0 .take, .run 0 (.node 0 .quiet), .run 0 (.node 1 .quiet),
      .run 0 (.node 0 .returned), .run 0 (.node 1 .returned), .run 0 (.node 0 (.pause true)),
      .run 0 (.node 1 (.pause true)), .run 0 (.node 0 .quiet), .run 0 (.node 0 .quiet)]
    ++ closingEvents 0
    ++ [.apply (approvalOf "a"), .list 0, .mark 0, .mark 0, .reenter 0 1 true]
    ++ openingEvents 1 ["x"] ++ toolStarts 1

/-- `x` depends on the approval of `b`, and is run when `a` has been approved. -/
theorem tool_runs_unapproved :
    ∃ s, runSys (fun _ _ => True) twoApprovals (start twoApprovals) twoApprovalsEvents = some s
      ∧ isApproval twoApprovals.dsl "b" ∧ DependsOn twoApprovals.dsl "x" "b"
      ∧ Executed s "x" ∧ s.applied = ["a"] := by
  have hdep : DependsOn twoApprovals.dsl "x" "b" := Relation.TransGen.single (by decide)
  exact ⟨_, rfl, rfl, hdep, .inr ⟨⟨"x", 1, .running, "", ""⟩, by decide, rfl⟩, rfl⟩

end AegisGate.Workflow
