import Mathlib.Data.List.Nodup

/-!
# Lists with handles

A doubly linked list whose nodes are known by handles, such as the iterators of a `std::list`: a node
keeps its handle while it is in the list, whatever is pushed or erased around it.

* `pushFront`, `pushBack`  a new node, with the handle `next`;
* `erase a`  the list without the node of a handle;
* `moveBack a`  the node of a handle comes last and keeps its handle;
* `popBack`  the list without its last node, `back?` is that node;
* `popFront`  the list without its first node, `front?` is that node.

The nodes carry distinct handles that have been given out before.  `values` are the values of the
nodes, in the order of the list.
-/

structure NodeList (α : Type*) where
  nodes : List (ℕ × α)
  next : ℕ
  fresh : ∀ n ∈ nodes, n.1 < next
  nodup : (nodes.map Prod.fst).Nodup

namespace NodeList

open List

variable {α : Type*} {l : NodeList α} {x : α} {a : ℕ}

def empty : NodeList α := ⟨[], 0, by simp, nodup_nil⟩

section
variable (l : NodeList α)

def values : List α := l.nodes.map Prod.snd

lemma next_notMem : l.next ∉ l.nodes.map Prod.fst := by
  intro h
  obtain ⟨n, hn, e⟩ := mem_map.1 h
  exact absurd (l.fresh n hn) (by omega)

def pushFront (x : α) : NodeList α where
  nodes := (l.next, x) :: l.nodes
  next := l.next + 1
  fresh := by
    intro n hn
    rcases mem_cons.1 hn with rfl | hn
    · exact Nat.lt_succ_self _
    · exact Nat.lt_succ_of_lt (l.fresh n hn)
  nodup := nodup_cons.2 ⟨l.next_notMem, l.nodup⟩

def pushBack (x : α) : NodeList α where
  nodes := l.nodes ++ [(l.next, x)]
  next := l.next + 1
  fresh := by
    intro n hn
    rcases mem_append.1 hn with hn | hn
    · exact Nat.lt_succ_of_lt (l.fresh n hn)
    · rw [mem_singleton.1 hn]
      exact Nat.lt_succ_self _
  nodup := by
    rw [map_append, map_singleton, nodup_append_comm]
    exact nodup_cons.2 ⟨l.next_notMem, l.nodup⟩

def erase (a : ℕ) : NodeList α where
  nodes := l.nodes.filter (·.1 ≠ a)
  next := l.next
  fresh := fun n hn => l.fresh n (mem_filter.1 hn).1
  nodup := l.nodup.sublist (filter_sublist.map Prod.fst)

def moveBack (a : ℕ) : NodeList α where
  nodes := l.nodes.filter (·.1 ≠ a) ++ l.nodes.filter (·.1 = a)
  next := l.next
  fresh := by
    intro n hn
    rcases mem_append.1 hn with hn | hn <;> exact l.fresh n (mem_filter.1 hn).1
  nodup := by
    rw [map_append, nodup_append]
    refine ⟨l.nodup.sublist (filter_sublist.map Prod.fst),
      l.nodup.sublist (filter_sublist.map Prod.fst), fun b hb c hc => ?_⟩
    obtain ⟨n, hn, rfl⟩ := mem_map.1 hb
    obtain ⟨m, hm, rfl⟩ := mem_map.1 hc
    have hne := of_decide_eq_true (mem_filter.1 hn).2
    have heq := of_decide_eq_true (mem_filter.1 hm).2
    rwa [heq]

def front? : Option α := l.nodes.head?.map Prod.snd

def popFront : NodeList α where
  nodes := l.nodes.tail
  next := l.next
  fresh := fun n hn => l.fresh n (mem_of_mem_tail hn)
  nodup := l.nodup.sublist ((tail_sublist _).map Prod.fst)

def back? : Option α := l.nodes.getLast?.map Prod.snd

def popBack : NodeList α where
  nodes := l.nodes.dropLast
  next := l.next
  fresh := fun n hn => l.fresh n ((dropLast_sublist _).subset hn)
  nodup := l.nodup.sublist ((dropLast_sublist _).map Prod.fst)

end

section
variable (l : NodeList α)

lemma mem_pushFront (x : α) (n : ℕ × α) :
    n ∈ (l.pushFront x).nodes ↔ n = (l.next, x) ∨ n ∈ l.nodes := mem_cons

lemma mem_pushBack (x : α) (n : ℕ × α) :
    n ∈ (l.pushBack x).nodes ↔ n = (l.next, x) ∨ n ∈ l.nodes := by
  rw [pushBack, mem_append, mem_singleton, or_comm]

lemma mem_erase (a : ℕ) (n : ℕ × α) : n ∈ (l.erase a).nodes ↔ n ∈ l.nodes ∧ n.1 ≠ a := by
  rw [erase, mem_filter, decide_eq_true_eq]

lemma values_pushBack (x : α) : (l.pushBack x).values = l.values ++ [x] := by
  rw [values, pushBack, map_append, map_singleton, values]

lemma values_erase_sublist (a : ℕ) : (l.erase a).values.Sublist l.values :=
  filter_sublist.map _

end

lemma mem_values : x ∈ l.values ↔ ∃ a, (a, x) ∈ l.nodes := by
  rw [values, mem_map]
  exact ⟨fun ⟨⟨a, _⟩, h, e⟩ => ⟨a, e ▸ h⟩, fun ⟨a, h⟩ => ⟨(a, x), h, rfl⟩⟩

lemma handle_unique (h : l.values.Nodup) {b : ℕ} (ha : (a, x) ∈ l.nodes) (hb : (b, x) ∈ l.nodes) :
    a = b :=
  congrArg Prod.fst (inj_on_of_nodup_map h ha hb rfl)

lemma value_unique {y : α} (hx : (a, x) ∈ l.nodes) (hy : (a, y) ∈ l.nodes) : x = y :=
  congrArg Prod.snd (inj_on_of_nodup_map l.nodup hx hy rfl)

lemma split_back (h : l.back? = some x) : ∃ a, l.nodes = l.popBack.nodes ++ [(a, x)] := by
  obtain ⟨⟨a, y⟩, hy, rfl⟩ := Option.map_eq_some_iff.1 h
  exact ⟨a, (dropLast_append_getLast? (a, y) hy).symm⟩

lemma popBack_eq_erase (h : l.nodes = l.popBack.nodes ++ [(a, x)]) : l.popBack = l.erase a := by
  have ha : a ∉ l.popBack.nodes.map Prod.fst := by
    have hnodup := l.nodup
    rw [h, map_append, map_singleton, nodup_append_comm] at hnodup
    exact (nodup_cons.1 hnodup).1
  have hkeep : l.nodes.filter (·.1 ≠ a) = l.popBack.nodes := by
    rw [h, filter_append, filter_cons_of_neg (by simp), filter_nil, append_nil, filter_eq_self]
    intro n hn
    simpa using fun e => ha (mem_map.2 ⟨n, hn, e⟩)
  unfold erase popBack at *
  congr 1
  exact hkeep.symm

lemma nodes_of_back_none (h : l.back? = none) : l.nodes = [] :=
  getLast?_eq_none_iff.1 (Option.map_eq_none_iff.1 h)

end NodeList
