import Mathlib.Data.Nat.Pairing
import Mathlib.Data.Rat.Encodable
import Mathlib.Data.Set.Function
import Mathlib.Logic.Equiv.List
import AegisGate.Workflow.Dsl

/-!
# The hash of a stored workflow

`execute` stores the text of the workflow with its `canonicalHash`, and `resume` compares the hash of
what it reads back.  An untouched text has the hash, and every text with that hash has the same
identity and nodes (`stored_hash_exact`).

What the library parses is sorted, so is what the workflow is written as (`canon_sorted`), and
`canonicalise` leaves it alone.
-/

namespace AegisGate.Workflow

open Json

/-! ## sorted values -/

lemma arguments_sorted {j : Json} (hj : j.Sorted) {n : NodeSpec} (h : nodeFromJson j = some n) :
    n.arguments.Sorted := by
  unfold nodeFromJson at h
  split at h
  · cases h
  · obtain ⟨type, -, rfl⟩ := Option.map_eq_some_iff.1 h
    show ((j.find? "arguments").getD (.obj [])).Sorted
    cases hargs : j.find? "arguments" with
    | none => exact .obj .nil nofun
    | some v => exact hj.find? hargs

lemma nodes_sorted {j : Json} (hj : j.Sorted) {dsl : WorkflowDsl} (h : fromJson j = some dsl) :
    ∀ n ∈ dsl.nodes, n.arguments.Sorted := by
  intro n hn
  obtain ⟨l, hl, e, he, hread⟩ := nodes_read h n hn
  cases hj.find? hl with
  | arr elems => exact arguments_sorted (elems e he) hread

lemma nodeToJson_sorted {n : NodeSpec} (h : n.arguments.Sorted) : (nodeToJson n).Sorted := by
  have hretry : (retryToJson n.retry).Sorted := by
    refine .obj (by simp only [List.map_cons, List.map_nil]; decide +kernel) ?_
    simp only [List.forall_mem_cons]
    exact ⟨.int _, .bool _, .int _, nofun⟩
  have hdeps : (Json.arr (n.dependsOn.map .str)).Sorted := by
    refine .arr fun j hj => ?_
    obtain ⟨s, -, rfl⟩ := List.mem_map.1 hj
    exact .str s
  refine .obj (by simp only [List.map_cons, List.map_nil]; decide +kernel) ?_
  simp only [List.forall_mem_cons]
  exact ⟨h, .str _, .str _, hdeps, .str _, hretry, .int _, .str _, .str _, nofun⟩

lemma nodesToJson_sorted {nodes : List NodeSpec} (h : ∀ n ∈ nodes, n.arguments.Sorted) :
    (Json.arr (nodes.map nodeToJson)).Sorted := by
  refine .arr fun j hj => ?_
  obtain ⟨n, hn, rfl⟩ := List.mem_map.1 hj
  exact nodeToJson_sorted (h n hn)

lemma canon_sorted {dsl : WorkflowDsl} (h : ∀ n ∈ dsl.nodes, n.arguments.Sorted) :
    (canon dsl).Sorted := by
  refine .obj (by simp only [List.map_cons, List.map_nil]; decide +kernel) ?_
  simp only [List.forall_mem_cons]
  exact ⟨.str _, nodesToJson_sorted h, .str _, nofun⟩

/-! ## the stored text -/

section
variable (parse : String → Except String Json) (dump : Json → String) (sha256 : String → String)

/-- what `resume` makes of the stored text; `none` is `dsl_corrupt` -/
def storedDsl (stored : String) : Option WorkflowDsl :=
  match parse stored with
  | .error _ => none
  | .ok j => fromJson j

def dslHash (dsl : WorkflowDsl) : String := canonicalHash (fun j => sha256 (dump j)) dsl

variable {parse}

lemma fromJson_of_storedDsl {stored : String} {dsl : WorkflowDsl}
    (h : storedDsl parse stored = some dsl) : ∃ j, parse stored = .ok j ∧ fromJson j = some dsl := by
  unfold storedDsl at h
  split at h
  · cases h
  · next j hj => exact ⟨j, hj, h⟩

lemma storedDsl_of_accepted {text : String} {dsl : WorkflowDsl}
    (h : parseWorkflowDslJson parse text = .ok dsl) : storedDsl parse text = some dsl := by
  unfold parseWorkflowDslJson at h
  unfold storedDsl
  cases hj : parse text with
  | error e =>
    rw [hj] at h
    cases h
  | ok j =>
    rw [hj] at h
    dsimp only at h ⊢
    cases hdsl : fromJson j with
    | none =>
      rw [hdsl] at h
      cases h
    | some dsl' =>
      rw [hdsl] at h
      dsimp only at h
      split at h <;> cases h
      rfl

/-- For every accepted workflow: its stored text is read back with the same hash, and a text with that
hash is a workflow with the same id, version and nodes. -/
theorem stored_hash_exact (hparse : ∀ stored j, parse stored = .ok j → j.Sorted) (text : String)
    {dsl : WorkflowDsl} (haccepted : parseWorkflowDslJson parse text = .ok dsl)
    (hread : parse (dump (toJson dsl)) = .ok (toJson dsl)) :
    (∃ dsl', storedDsl parse (dump (toJson dsl)) = some dsl' ∧
      dslHash dump sha256 dsl' = dslHash dump sha256 dsl) ∧
    (Function.Injective sha256 → Set.InjOn dump {j | j.Sorted} → ∀ stored dsl',
      storedDsl parse stored = some dsl' → dslHash dump sha256 dsl' = dslHash dump sha256 dsl →
        dsl'.id = dsl.id ∧ dsl'.version = dsl.version ∧ dsl'.nodes = dsl.nodes) := by
  obtain ⟨j, hj, hdsl⟩ := fromJson_of_storedDsl (storedDsl_of_accepted haccepted)
  have hids := fromJson_ids hdsl
  refine ⟨⟨{ dsl with metadata := metadataFromJson (toJson dsl) }, ?_, rfl⟩, ?_⟩
  · unfold storedDsl
    rw [hread]
    exact fromJson_toJson hids
  · intro hsha hdump stored dsl' hstored hhash
    obtain ⟨j', hj', hdsl'⟩ := fromJson_of_storedDsl hstored
    have hsorted := canon_sorted (nodes_sorted (hparse _ _ hj) hdsl)
    have hsorted' := canon_sorted (nodes_sorted (hparse _ _ hj') hdsl')
    have htext : dump (canon dsl').canonicalise = dump (canon dsl).canonicalise := hsha hhash
    rw [hsorted.canonicalise_eq, hsorted'.canonicalise_eq] at htext
    have hcanon := hdump hsorted' hsorted htext
    simp only [canon, Json.obj.injEq, List.cons.injEq, Prod.mk.injEq, Json.str.injEq, Json.arr.injEq,
      true_and, and_true] at hcanon
    obtain ⟨hid, hnodes, hversion⟩ := hcanon
    refine ⟨hid, hversion, ?_⟩
    -- the nodes are read back from their texts
    have hback := mapM_nodeFromJson (fromJson_ids hdsl')
    rw [hnodes, mapM_nodeFromJson hids] at hback
    exact (Option.some.inj hback).symm

end

/-! ## a library that prints every value differently -/

def codeString (s : String) : ℕ := Encodable.encode (s.toList.map Char.toNat)

mutual

/-- a number for each value -/
def code : Json → ℕ
  | .null => Nat.pair 0 0
  | .bool b => Nat.pair 1 (Encodable.encode b)
  | .int n => Nat.pair 2 (Encodable.encode n)
  | .float q => Nat.pair 3 (Encodable.encode q)
  | .str s => Nat.pair 4 (codeString s)
  | .arr l => Nat.pair 5 (codeElems l)
  | .obj l => Nat.pair 6 (codeMembers l)

def codeElems : List Json → ℕ
  | [] => 0
  | j :: l => Nat.pair (code j) (codeElems l) + 1

def codeMembers : List (String × Json) → ℕ
  | [] => 0
  | (k, j) :: l => Nat.pair (codeString k) (Nat.pair (code j) (codeMembers l)) + 1

end

lemma codeString_injective : Function.Injective codeString := by
  intro s s' h
  have hlist := List.map_injective_iff.2 (fun _ _ hc => Char.toNat_inj.1 hc) (Encodable.encode_injective h)
  exact String.toList_inj.1 hlist

mutual

lemma code_injective (j : Json) : ∀ j', code j = code j' → j = j' := by
  intro j' h
  match j with
  | .arr l =>
    cases j' <;> simp [code, Nat.pair_eq_pair] at h
    rw [codeElems_injective l _ h]
  | .obj l =>
    cases j' <;> simp [code, Nat.pair_eq_pair] at h
    rw [codeMembers_injective l _ h]
  | .null | .bool b | .int n | .float q | .str s =>
    cases j' <;> simp_all [code, Nat.pair_eq_pair, codeString_injective.eq_iff]

lemma codeElems_injective (l : List Json) : ∀ l', codeElems l = codeElems l' → l = l' := by
  intro l' h
  match l, l' with
  | [], [] => rfl
  | j :: l, j' :: l' =>
    simp only [codeElems, Nat.add_right_cancel_iff, Nat.pair_eq_pair] at h
    rw [code_injective j j' h.1, codeElems_injective l l' h.2]

lemma codeMembers_injective (l : List (String × Json)) :
    ∀ l', codeMembers l = codeMembers l' → l = l' := by
  intro l' h
  match l, l' with
  | [], [] => rfl
  | (k, j) :: l, (k', j') :: l' =>
    simp only [codeMembers, Nat.add_right_cancel_iff, Nat.pair_eq_pair] at h
    rw [codeString_injective h.1, code_injective j j' h.2.1, codeMembers_injective l l' h.2.2]

end

def unaryDump (j : Json) : String := String.ofList (List.replicate (code j) '1')

lemma unaryDump_injective : Function.Injective unaryDump := by
  intro j j' h
  have hlength := congrArg (fun s : String => s.toList.length) h
  simp only [unaryDump, String.toList_ofList, List.length_replicate] at hlength
  exact code_injective j j' hlength

open Classical in
noncomputable def unaryParse (text : String) : Except String Json :=
  if h : ∃ j, j.Sorted ∧ unaryDump j = text then .ok h.choose else .error "no value"

lemma unaryParse_sorted (text : String) (j : Json) (h : unaryParse text = .ok j) : j.Sorted := by
  unfold unaryParse at h
  split at h
  · next hex =>
    cases h
    exact hex.choose_spec.1
  · cases h

lemma unaryParse_unaryDump {j : Json} (h : j.Sorted) : unaryParse (unaryDump j) = .ok j := by
  have hex : ∃ j', j'.Sorted ∧ unaryDump j' = unaryDump j := ⟨j, h, rfl⟩
  rw [unaryParse, dif_pos hex, unaryDump_injective hex.choose_spec.2]

def oneTool : WorkflowDsl where
  id := "w"
  nodes := [{ id := "a", toolId := "t" }]

lemma oneTool_sorted : (toJson oneTool).Sorted := by
  have hempty : (Json.obj []).Sorted := .obj .nil nofun
  have hnodes : ∀ n ∈ oneTool.nodes, n.arguments.Sorted := by
    simpa [oneTool] using hempty
  refine .obj (by decide +kernel) ?_
  simp only [List.forall_mem_cons]
  exact ⟨.str _, .str _, hempty, nodesToJson_sorted hnodes, .str _, nofun⟩

/-- a workflow of one tool: its text is read back with the same hash, and a text with that hash has
the same node -/
theorem one_tool_hash :
    (∃ dsl', storedDsl unaryParse (unaryDump (toJson oneTool)) = some dsl' ∧
      dslHash unaryDump id dsl' = dslHash unaryDump id oneTool) ∧
    ∀ stored dsl', storedDsl unaryParse stored = some dsl' →
      dslHash unaryDump id dsl' = dslHash unaryDump id oneTool →
        dsl'.id = "w" ∧ dsl'.version = "" ∧ dsl'.nodes = [{ id := "a", toolId := "t" }] := by
  have hread := unaryParse_unaryDump oneTool_sorted
  have haccepted : parseWorkflowDslJson unaryParse (unaryDump (toJson oneTool)) = .ok oneTool := by
    rw [parseWorkflowDslJson, hread]
    rfl
  obtain ⟨hback, hexact⟩ := stored_hash_exact unaryDump id unaryParse_sorted _ haccepted hread
  exact ⟨hback, hexact Function.injective_id unaryDump_injective.injOn⟩

end AegisGate.Workflow
