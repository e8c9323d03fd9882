import AegisGate.Workflow.Dsl

/-!
# The cycle check and the node it reports

`validateNoCycle` with its `error_node_id_out`: the first node that names itself, or else the first one,
in the order of the map `in_degree`, that still has an in-degree when Kahn's loop has ended.
-/

namespace AegisGate.Workflow

open List

/-- the answer and the reported node; `order` is the iteration order of `in_degree` -/
def checkNoCycle (order : List String) (dsl : WorkflowDsl) : Bool × Option String :=
  match dsl.nodes.find? (fun n => n.dependsOn.contains n.id) with
  | some n => (false, some n.id)
  | none =>
    if Topo.kahn (succ dsl) dsl.nodes.length (inDegree dsl) (roots dsl) = dsl.nodes.length then
      (true, none)
    else
      (false, order.find? fun id =>
        0 < Topo.kahnDegrees (succ dsl) dsl.nodes.length (inDegree dsl) (roots dsl) id)

/-- `a` is one of the nodes that `b` waits for -/
def Precedes (dsl : WorkflowDsl) (a b : String) : Prop := a ∈ deps dsl b

section
variable (dsl : WorkflowDsl) (order : List String)

lemma checkNoCycle_fst : (checkNoCycle order dsl).1 = validateNoCycle dsl := by
  unfold checkNoCycle validateNoCycle
  cases hself : dsl.nodes.find? (fun n => n.dependsOn.contains n.id) with
  | some n =>
    have hany : (dsl.nodes.any fun n => n.dependsOn.contains n.id) :=
      any_eq_true.2 ⟨n, mem_of_find?_eq_some hself, by simpa using find?_some hself⟩
    rw [hany]
    rfl
  | none =>
    have hany : (dsl.nodes.any fun n => n.dependsOn.contains n.id) = false :=
      any_eq_false.2 (find?_eq_none.1 hself)
    rw [hany]
    dsimp only
    split
    · next hcount => simp [hcount]
    · next hcount => simp [hcount]

variable {dsl}

lemma deps_present (hdeps : ∀ n ∈ dsl.nodes, ∀ d ∈ n.dependsOn, d ∈ ids dsl) (id : String) :
    ∀ d ∈ deps dsl id, d ∈ ids dsl := by
  intro d hd
  obtain ⟨n, hn, -, hd⟩ := mem_deps.1 hd
  exact hdeps n hn d hd

/-- For distinct ids and dependencies that are there: the check passes exactly when there is no cycle,
and the node it reports otherwise is in no order of execution. -/
theorem cycle_check_exact (hnodup : (ids dsl).Nodup)
    (hdeps : ∀ n ∈ dsl.nodes, ∀ d ∈ n.dependsOn, d ∈ ids dsl) (horder : order.Perm (ids dsl)) :
    ((checkNoCycle order dsl).1 ↔ ∀ id, ¬ Relation.TransGen (Precedes dsl) id id) ∧
      ((checkNoCycle order dsl).1 = false → ∃ id, (checkNoCycle order dsl).2 = some id ∧
        id ∈ ids dsl ∧ ∀ W, Topo.Ordered (deps dsl) W → (∀ x ∈ W, x ∈ ids dsl) → id ∉ W) := by
  obtain ⟨V, hdone, hcount⟩ := kahn_done dsl
  rw [hnodup.dedup] at hdone
  refine ⟨?_, fun hfalse => ?_⟩
  · rw [checkNoCycle_fst]
    constructor
    · intro hvalid id hcycle
      obtain ⟨W, hord, hmem⟩ := validateNoCycle_ordered dsl hvalid
      -- a node on a cycle is the dependency of another
      obtain ⟨b, hstep, -⟩ := Relation.TransGen.head'_iff.1 hcycle
      exact hord.acyclic id ((hmem id).2 (deps_present hdeps b id hstep)) hcycle
    · intro hacyclic
      have hall := hdone.of_acyclic (fun x _ => deps_present hdeps x) hacyclic
      exact validateNoCycle_of_ordered dsl hnodup hdone.ordered
        fun id => ⟨fun hid => hdone.mem id (.inr hid), hall id⟩
  · unfold checkNoCycle at hfalse ⊢
    cases hself : dsl.nodes.find? (fun n => n.dependsOn.contains n.id) with
    | some n =>
      have hn := mem_of_find?_eq_some hself
      have hd : n.id ∈ n.dependsOn := by simpa using find?_some hself
      exact ⟨n.id, rfl, mem_map_of_mem hn, fun W hW _ hmem =>
        hW.irrefl n.id hmem (mem_deps.2 ⟨n, hn, rfl, hd⟩)⟩
    | none =>
      simp only [hself] at hfalse ⊢
      split at hfalse
      · cases hfalse
      · next hne =>
        rw [if_neg hne]
        -- some node was not visited
        obtain ⟨x, hxU, hxV⟩ : ∃ x ∈ ids dsl, x ∉ V := by
          by_contra hno
          have hsub : ids dsl ⊆ V := fun x hx => by_contra fun hxV => hno ⟨x, hx, hxV⟩
          have hle := (subperm_of_subset hnodup hsub).length_le
          have hge := hdone.length_le
          rw [ids, length_map] at hle hge
          omega
        have hleft := hdone.degree x
        have hcover := hdone.cover x hxU
        have hfind : (order.find? fun id =>
            0 < Topo.kahnDegrees (succ dsl) dsl.nodes.length (inDegree dsl) (roots dsl) id).isSome := by
          refine find?_isSome.2 ⟨x, horder.mem_iff.2 hxU, decide_eq_true ?_⟩
          rcases hcover with hV | hq | hpos
          · exact absurd hV hxV
          · cases hq
          · omega
        obtain ⟨id, hid⟩ := Option.isSome_iff_exists.1 hfind
        refine ⟨id, hid, horder.mem_iff.1 (mem_of_find?_eq_some hid), fun W hW hmem => ?_⟩
        exact hdone.stuck (by simpa using find?_some hid) hW hmem

end

/-- `b` waits for `a`, and names it twice -/
def twoNodes : WorkflowDsl where
  nodes := [{ id := "a" }, { id := "b", dependsOn := ["a", "a"] }]

theorem two_nodes_pass : ¬ Relation.TransGen (Precedes twoNodes) "a" "a" :=
  (cycle_check_exact ["b", "a"] (by decide) (by decide) (by decide)).1.1 (by decide +kernel) "a"

end AegisGate.Workflow
