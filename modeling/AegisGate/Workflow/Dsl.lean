import AegisGate.Core.Json
import AegisGate.Lib.Topo

/-!
# The workflow language

A workflow is a list of nodes with their dependencies.  `toJson` and `fromJson` store it and read it
back, `parseWorkflowDslJson` accepts it, `validateNoCycle` and `validateNoSandboxBypass` are the two
checks the engine makes before it runs anything.

* `deps`, `succ`, `inDegree`  the tables the engine and the cycle check build from the nodes;
* `validateNoCycle_ordered`  a workflow that passes the check can be put in an order.

JSON text and hashing belong to other libraries: `parse` and `sha256` are parameters.  Objects are
written with their keys in order, as the library keeps them.
-/

namespace AegisGate.Workflow

open Option Topo Int32

inductive NodeType where
  | tool
  | humanApproval
  | conditional
  | fanOut
  | fanIn
  deriving DecidableEq, Repr

def NodeType.toString : NodeType → String
  | tool => "tool"
  | humanApproval => "human_approval"
  | conditional => "conditional"
  | fanOut => "fan_out"
  | fanIn => "fan_in"

def nodeTypeFromString (s : String) : Option NodeType :=
  if s = "tool" then some .tool
  else if s = "human_approval" then some .humanApproval
  else if s = "conditional" then some .conditional
  else if s = "fan_out" then some .fanOut
  else if s = "fan_in" then some .fanIn
  else none

lemma nodeTypeFromString_toString (t : NodeType) : nodeTypeFromString t.toString = some t := by
  cases t <;> decide

structure RetryPolicy where
  maxAttempts : Int32 := 1
  backoffMs : Int32 := 0
  exponential : Bool := false

structure NodeSpec where
  id : String := ""
  type : NodeType := .tool
  toolId : String := ""
  arguments : Json := .obj []
  dependsOn : List String := []
  condition : String := ""
  retry : RetryPolicy := {}
  timeoutMs : Int32 := 30000
  deadLetterLog : String := ""

structure WorkflowDsl where
  id : String := ""
  version : String := ""
  description : String := ""
  nodes : List NodeSpec := []
  metadata : Json := .obj []

/-! ## storing and reading back -/

def retryToJson (r : RetryPolicy) : Json :=
  .obj [("backoff_ms", .int r.backoffMs.toInt), ("exponential", .bool r.exponential),
    ("max_attempts", .int r.maxAttempts.toInt)]

section
variable (j : Json)

/-- a string member, or the default when it is missing or something else -/
def strMember (k d : String) : String :=
  match j.find? k with
  | some (.str s) => s
  | _ => d

/-- an integer member as a C++ `int`, or the default -/
def intMember (k : String) (d : Int32) : Int32 :=
  match j.find? k with
  | some (.int n) => ofInt n
  | _ => d

def boolMember (k : String) (d : Bool) : Bool :=
  match j.find? k with
  | some (.bool b) => b
  | _ => d

def retryFromJson : RetryPolicy where
  maxAttempts := intMember j "max_attempts" 1
  backoffMs := intMember j "backoff_ms" 0
  exponential := boolMember j "exponential" false

def nodeToJson (n : NodeSpec) : Json :=
  .obj [("arguments", n.arguments), ("condition", .str n.condition),
    ("dead_letter_log", .str n.deadLetterLog), ("depends_on", .arr (n.dependsOn.map .str)),
    ("id", .str n.id), ("retry", retryToJson n.retry), ("timeout_ms", .int n.timeoutMs.toInt),
    ("tool_id", .str n.toolId), ("type", .str n.type.toString)]

def dependsOnFromJson : List String :=
  match j.find? "depends_on" with
  | some (.arr l) => l.filterMap (fun d => match d with
    | .str s => some s
    | _ => none)
  | _ => []

/-- a type that is not a string leaves the default, an unknown one is refused -/
def typeFromJson : Option NodeType :=
  match j.find? "type" with
  | some (.str s) => nodeTypeFromString s
  | _ => some .tool

def nodeFromJson : Option NodeSpec :=
  if j.isObject = false ∨ strMember j "id" "" = "" then none
  else
    (typeFromJson j).map (fun type =>
      { id := strMember j "id" "", type, toolId := strMember j "tool_id" "",
        arguments := (j.find? "arguments").getD (.obj []), dependsOn := dependsOnFromJson j,
        condition := strMember j "condition" "",
        retry := ((j.find? "retry").map retryFromJson).getD {},
        timeoutMs := intMember j "timeout_ms" 30000,
        deadLetterLog := strMember j "dead_letter_log" "" })

def toJson (dsl : WorkflowDsl) : Json :=
  .obj [("description", .str dsl.description), ("id", .str dsl.id), ("metadata", dsl.metadata),
    ("nodes", .arr (dsl.nodes.map nodeToJson)), ("version", .str dsl.version)]

def nodesFromJson : Option (List NodeSpec) :=
  match j.find? "nodes" with
  | some (.arr l) => l.mapM nodeFromJson
  | _ => some []

def metadataFromJson : Json :=
  match j.find? "metadata" with
  | some (.obj l) => .obj l
  | _ => .obj []

def fromJson : Option WorkflowDsl :=
  if j.isObject = false then none
  else
    (nodesFromJson j).map (fun nodes =>
      { id := strMember j "id" "", version := strMember j "version" "",
        description := strMember j "description" "", nodes,
        metadata := metadataFromJson j })

def canonicalise (v : Json) : Json := v.canonicalise

/-- what is hashed, without `description` and `metadata` -/
def canon (dsl : WorkflowDsl) : Json :=
  .obj [("id", .str dsl.id), ("nodes", .arr (dsl.nodes.map nodeToJson)), ("version", .str dsl.version)]

def canonicalHash (sha256 : Json → String) (dsl : WorkflowDsl) : String :=
  sha256 (canonicalise (canon dsl))

lemma retryFromJson_retryToJson (r : RetryPolicy) : retryFromJson (retryToJson r) = r := by
  have e1 : intMember (retryToJson r) "max_attempts" 1 = ofInt r.maxAttempts.toInt := rfl
  have e2 : intMember (retryToJson r) "backoff_ms" 0 = ofInt r.backoffMs.toInt := rfl
  have e3 : boolMember (retryToJson r) "exponential" false = r.exponential := rfl
  rw [retryFromJson, e1, e2, e3, ofInt_toInt, ofInt_toInt]

lemma dependsOnFromJson_nodeToJson (n : NodeSpec) :
    dependsOnFromJson (nodeToJson n) = n.dependsOn := by
  have e : dependsOnFromJson (nodeToJson n)
      = (n.dependsOn.map Json.str).filterMap (fun d => match d with
        | .str s => some s
        | _ => none) := rfl
  rw [e, List.filterMap_map]
  exact List.filterMap_some

lemma nodeFromJson_nodeToJson {n : NodeSpec} (h : n.id ≠ "") :
    nodeFromJson (nodeToJson n) = some n := by
  have eid : strMember (nodeToJson n) "id" "" = n.id := rfl
  have etype : typeFromJson (nodeToJson n) = nodeTypeFromString n.type.toString := rfl
  have eretry : (nodeToJson n).find? "retry" = some (retryToJson n.retry) := rfl
  have etimeout : intMember (nodeToJson n) "timeout_ms" 30000 = ofInt n.timeoutMs.toInt :=
    rfl
  have hno : ¬ ((nodeToJson n).isObject = false ∨ n.id = "") := by
    rintro (hobj | hid)
    · cases hobj
    · exact h hid
  rw [nodeFromJson, eid, if_neg hno, etype, nodeTypeFromString_toString, eretry, etimeout,
    map_some, map_some, getD_some, retryFromJson_retryToJson,
    dependsOnFromJson_nodeToJson, ofInt_toInt]
  rfl

lemma mapM_nodeFromJson {l : List NodeSpec} (h : ∀ n ∈ l, n.id ≠ "") :
    (l.map nodeToJson).mapM nodeFromJson = some l := by
  induction l with
  | nil => rfl
  | cons n l ih =>
    rw [List.map_cons, List.mapM_cons, nodeFromJson_nodeToJson (h n List.mem_cons_self),
      ih fun m hm => h m (List.mem_cons_of_mem n hm)]
    rfl

/-- a stored workflow is read back, with metadata that is not an object dropped -/
theorem fromJson_toJson {dsl : WorkflowDsl} (h : ∀ n ∈ dsl.nodes, n.id ≠ "") :
    fromJson (toJson dsl) = some { dsl with metadata := metadataFromJson (toJson dsl) } := by
  have hnodes : nodesFromJson (toJson dsl) = some dsl.nodes := mapM_nodeFromJson h
  have hobj : ¬ (toJson dsl).isObject = false := Bool.noConfusion
  rw [fromJson, if_neg hobj, hnodes]
  rfl

lemma nodeFromJson_empty {n : NodeSpec} (h : n.id = "") : nodeFromJson (nodeToJson n) = none := by
  have eid : strMember (nodeToJson n) "id" "" = n.id := rfl
  rw [nodeFromJson, eid, if_pos (.inr h)]

lemma nodes_of_fromJson {dsl dsl' : WorkflowDsl} (h : fromJson (toJson dsl) = some dsl') :
    dsl'.nodes = dsl.nodes := by
  have hobj : ¬ (toJson dsl).isObject = false := Bool.noConfusion
  obtain ⟨nodes, hnodes, rfl⟩ := map_eq_some_iff.1 h
  have hmap : (dsl.nodes.map nodeToJson).mapM nodeFromJson = some nodes := hnodes
  show nodes = dsl.nodes
  clear hnodes h
  generalize dsl.nodes = l at hmap
  induction l generalizing nodes with
  | nil =>
    cases hmap
    rfl
  | cons n l ih =>
    rw [List.map_cons, List.mapM_cons] at hmap
    obtain ⟨m, hm, hmap⟩ := bind_eq_some_iff.1 hmap
    obtain ⟨ms, hms, hmap⟩ := bind_eq_some_iff.1 hmap
    cases hmap
    by_cases hid : n.id = ""
    · rw [nodeFromJson_empty hid] at hm
      cases hm
    · rw [nodeFromJson_nodeToJson hid] at hm
      cases hm
      rw [ih ms hms]

lemma mem_of_mapM {α β : Type} {f : α → Option β} {l : List α} : ∀ {r : List β},
    l.mapM f = some r → ∀ b ∈ r, ∃ a ∈ l, f a = some b := by
  induction l with
  | nil =>
    intro r h
    cases h
    exact nofun
  | cons a l ih =>
    intro r h
    rw [List.mapM_cons] at h
    obtain ⟨b, hb, h⟩ := bind_eq_some_iff.1 h
    obtain ⟨bs, hbs, h⟩ := bind_eq_some_iff.1 h
    cases h
    refine List.forall_mem_cons.2 ⟨⟨a, List.mem_cons_self, hb⟩, fun c hc => ?_⟩
    obtain ⟨x, hx, hread⟩ := ih hbs c hc
    exact ⟨x, List.mem_cons_of_mem a hx, hread⟩

/-- every node of a document was read from an element of its `nodes` -/
lemma nodes_read {j : Json} {dsl : WorkflowDsl} (h : fromJson j = some dsl) : ∀ n ∈ dsl.nodes,
    ∃ l, j.find? "nodes" = some (.arr l) ∧ ∃ e ∈ l, nodeFromJson e = some n := by
  unfold fromJson at h
  split at h
  · cases h
  · obtain ⟨nodes, hnodes, rfl⟩ := map_eq_some_iff.1 h
    unfold nodesFromJson at hnodes
    split at hnodes
    · next l hl => exact fun n hn => ⟨l, hl, mem_of_mapM hnodes n hn⟩
    · cases hnodes
      exact nofun

lemma fromJson_ids {j : Json} {dsl : WorkflowDsl} (h : fromJson j = some dsl) :
    ∀ n ∈ dsl.nodes, n.id ≠ "" := by
  intro n hn
  obtain ⟨-, -, e, -, he⟩ := nodes_read h n hn
  unfold nodeFromJson at he
  split at he
  · cases he
  · next hne =>
    obtain ⟨type, -, rfl⟩ := map_eq_some_iff.1 he
    exact fun hid => hne (.inr hid)

/-- a document that is accepted is the same after it is stored -/
theorem fromJson_stable : (fromJson j).bind (fun dsl => fromJson (toJson dsl)) = fromJson j := by
  cases h : fromJson j with
  | none => rfl
  | some dsl =>
    rw [bind_some, fromJson_toJson (fromJson_ids h)]
    unfold fromJson at h
    split at h
    · cases h
    · obtain ⟨nodes, -, rfl⟩ := map_eq_some_iff.1 h
      have hmeta : ∃ l, metadataFromJson j = .obj l := by
        unfold metadataFromJson
        split <;> exact ⟨_, rfl⟩
      obtain ⟨l, hl⟩ := hmeta
      rw [hl]
      rfl

end

/-- the errors of the checks across nodes: ids used twice, dependencies that do not exist -/
def runStructuralChecks (dsl : WorkflowDsl) : List String :=
  let ids := dsl.nodes.map (·.id)
  let duplicates := (List.range ids.length).filterMap (fun i =>
    let id := ids.getD i ""
    if id ∈ ids.take i then some ("duplicate node id '" ++ id ++ "'") else none)
  let missing := dsl.nodes.flatMap (fun n => n.dependsOn.filterMap (fun d =>
    if d ∈ ids then none else some ("node '" ++ n.id ++ "' depends on missing node '" ++ d ++ "'")))
  duplicates ++ missing

/-- `parse` is the JSON library, with the text of its error -/
def parseWorkflowDslJson (parse : String → Except String Json) (text : String) :
    Except (List String) WorkflowDsl :=
  match parse text with
  | .error e => .error ["json parse failed: " ++ e]
  | .ok j =>
    match fromJson j with
    | none => .error ["json shape did not match WorkflowDsl"]
    | some dsl =>
      match runStructuralChecks dsl with
      | [] => .ok dsl
      | errors => .error errors

/-! ## the graph of a workflow -/

section
variable (dsl : WorkflowDsl)

def ids : List String := dsl.nodes.map (·.id)

/-- the dependencies of the nodes called `id` -/
def deps (id : String) : List String :=
  (dsl.nodes.filter (·.id = id)).flatMap (·.dependsOn)

lemma mem_deps {dsl : WorkflowDsl} {x d : String} :
    d ∈ deps dsl x ↔ ∃ n ∈ dsl.nodes, n.id = x ∧ d ∈ n.dependsOn := by
  simp only [deps, List.mem_flatMap, List.mem_filter, decide_eq_true_eq]
  constructor
  · rintro ⟨n, ⟨hn, hid⟩, hd⟩
    exact ⟨n, hn, hid, hd⟩
  · rintro ⟨n, hn, hid, hd⟩
    exact ⟨n, ⟨hn, hid⟩, hd⟩

/-- `succ[d]`: one entry for each time a node names `d` -/
def succ (d : String) : List String :=
  dsl.nodes.flatMap (fun n => (n.dependsOn.filter (· = d)).map (fun _ => n.id))

def inDegree (id : String) : Int := (deps dsl id).length

def roots : List String :=
  (ids dsl).dedup.filter (inDegree dsl · = 0)

/-- Kahn's algorithm, after the nodes that depend on themselves -/
def validateNoCycle : Bool :=
  !(dsl.nodes.any (fun n => n.dependsOn.contains n.id))
    && kahn (succ dsl) dsl.nodes.length (inDegree dsl) (roots dsl) == dsl.nodes.length

end

/-- the nodes that would run a tool outside the sandbox -/
def validateNoSandboxBypass (registry : Option (String → Bool)) (dsl : WorkflowDsl) :
    List String :=
  (dsl.nodes.filter (fun n =>
    match n.type with
    | .fanOut | .fanIn | .conditional => false
    | .humanApproval => n.toolId = ""
    | .tool => n.toolId = "" || (registry.map (!· n.toolId)).getD false)).map
    (·.id)

section
variable (dsl : WorkflowDsl)

lemma count_succ (c x : String) : (succ dsl c).count x = (deps dsl x).count c := by
  unfold succ deps
  induction dsl.nodes with
  | nil => rfl
  | cons n l ih =>
    have hmap : ((n.dependsOn.filter (· = c)).map fun _ => n.id).count x
        = if n.id = x then n.dependsOn.count c else 0 := by
      rw [List.map_const', List.count_replicate, List.count_eq_length_filter]
      simp only [beq_eq_decide, decide_eq_true_eq]
    rw [List.flatMap_cons, List.count_append, ih, hmap]
    by_cases hx : n.id = x
    · rw [if_pos hx, List.filter_cons_of_pos (by simpa using hx), List.flatMap_cons,
        List.count_append]
    · rw [if_neg hx, List.filter_cons_of_neg (by simpa using hx), Nat.zero_add]

lemma mem_ids_of_mem_succ (c : String) : ∀ x ∈ succ dsl c, x ∈ (ids dsl).dedup := by
  intro x hx
  obtain ⟨n, hn, hx⟩ := List.mem_flatMap.1 hx
  obtain ⟨-, -, rfl⟩ := List.mem_map.1 hx
  exact List.mem_dedup.2 (List.mem_map_of_mem hn)

lemma frontier_start : Frontier (deps dsl) (ids dsl).dedup [] (inDegree dsl) (roots dsl) := by
  refine Frontier.start (fun x => ?_) (List.nodup_dedup _)
  simp [inDegree, remaining]

lemma length_dedup_ids : (ids dsl).dedup.length ≤ dsl.nodes.length := by
  have h := (List.dedup_sublist (ids dsl)).length_le
  rwa [ids, List.length_map] at h

/-- a round of the loop for each node is enough: at the end no node is ready -/
lemma kahn_done : ∃ W,
    Frontier (deps dsl) (ids dsl).dedup W
      (kahnDegrees (succ dsl) dsl.nodes.length (inDegree dsl) (roots dsl)) [] ∧
    W.length = kahn (succ dsl) dsl.nodes.length (inDegree dsl) (roots dsl) := by
  obtain ⟨W, hW, hcount⟩ := kahn_final (count_succ dsl) (mem_ids_of_mem_succ dsl) dsl.nodes.length
    (frontier_start dsl) ((length_dedup_ids dsl).trans_eq (Nat.zero_add _).symm)
  exact ⟨W, hW, hcount.trans (Nat.zero_add _)⟩

section
variable (h : validateNoCycle dsl)
include h

lemma validateNoCycle_perm : ∃ W, Ordered (deps dsl) W ∧ W.Perm (ids dsl) := by
  simp only [validateNoCycle, Bool.and_eq_true, beq_iff_eq] at h
  obtain ⟨W, hW, hcount⟩ := kahn_done dsl
  have hlen : (ids dsl).length = W.length := by
    rw [ids, List.length_map, hcount, h.2]
  have hperm := hW.perm_of_length ((length_dedup_ids dsl).trans (hcount.trans h.2).ge)
  have hsame := (List.dedup_sublist (ids dsl)).eq_of_length (hperm.length_eq.symm.trans hlen.symm)
  exact ⟨W, hW.ordered, hsame ▸ hperm⟩

theorem validateNoCycle_ordered : ∃ W, Ordered (deps dsl) W ∧ ∀ id, id ∈ W ↔ id ∈ ids dsl := by
  obtain ⟨W, hord, hperm⟩ := validateNoCycle_perm dsl h
  exact ⟨W, hord, fun _ => hperm.mem_iff⟩

lemma roots_ne_nil (hnodes : dsl.nodes ≠ []) : roots dsl ≠ [] := by
  intro hroots
  simp only [validateNoCycle, Bool.and_eq_true, beq_iff_eq, hroots] at h
  have hlen := h.2
  cases hn : dsl.nodes with
  | nil => exact hnodes hn
  | cons n l =>
    rw [hn, List.length_cons, kahn] at hlen
    omega

lemma validateNoCycle_nodup : (ids dsl).Nodup := by
  obtain ⟨W, hord, hperm⟩ := validateNoCycle_perm dsl h
  exact hperm.nodup_iff.1 hord.nodup

end

/-- a workflow whose nodes can be ordered, and have ids of their own, passes -/
lemma validateNoCycle_of_ordered {W : List String} (hnodup : (ids dsl).Nodup)
    (hW : Ordered (deps dsl) W) (hall : ∀ id, id ∈ W ↔ id ∈ ids dsl) : validateNoCycle dsl := by
  have hself : (dsl.nodes.any fun n => n.dependsOn.contains n.id) = false := by
    refine List.any_eq_false.2 fun n hn hcontains => ?_
    have hid : n.id ∈ W := (hall n.id).2 (List.mem_map_of_mem hn)
    refine hW.irrefl n.id hid (List.mem_flatMap.2 ⟨n, List.mem_filter.2 ⟨hn, by simp⟩, ?_⟩)
    simpa using hcontains
  obtain ⟨W', hdone, hcount⟩ := kahn_done dsl
  have hkahn := hdone.complete (List.nodup_dedup _) hW fun id => (hall id).trans List.mem_dedup.symm
  rw [hcount, hnodup.dedup, ids, List.length_map] at hkahn
  simp only [validateNoCycle, hself, Bool.not_false, Bool.true_and, hkahn, beq_self_eq_true]

end

end AegisGate.Workflow
