import Mathlib.Data.List.Nodup

/-!
# Tables of records that carry their own key

`Table key` holds at most one record for each key, where the key of a record is one of its fields.
`find`, `put` and `erase` are the operations; `find_put` and `find_erase` say what they change,
`find_eq_some_iff` that a record is found under its own key and nowhere else, and `size_put`,
`size_erase` count the records.
-/

structure Table {K V : Type} (key : V → K) where
  rows : List V
  nodup : (rows.map key).Nodup

namespace Table

open List

variable {K V : Type} {key : V → K}

def empty : Table key := ⟨[], nodup_nil⟩

variable [DecidableEq K] {t : Table key} {k : K} {v : V}

def find (t : Table key) (k : K) : Option V := t.rows.find? (key · = k)

/-- the record, in place of the one with the same key -/
def put (t : Table key) (v : V) : Table key where
  rows := v :: t.rows.filter (key · ≠ key v)
  nodup := by
    rw [map_cons, nodup_cons]
    constructor
    · intro h
      obtain ⟨w, hw, e⟩ := mem_map.1 h
      simp [e] at hw
    · exact t.nodup.sublist (filter_sublist.map key)

theorem find_eq_some_iff : t.find k = some v ↔ v ∈ t.rows ∧ key v = k := by
  constructor
  · intro h
    have e := find?_some h
    exact ⟨mem_of_find?_eq_some h, of_decide_eq_true e⟩
  · rintro ⟨hv, rfl⟩
    cases h : t.find (key v) with
    | none => exact absurd (find?_eq_none.1 h v hv) (by simp)
    | some w =>
      have hw : w ∈ t.rows := mem_of_find?_eq_some h
      have e := find?_some h
      rw [inj_on_of_nodup_map t.nodup hw hv (of_decide_eq_true e)]

lemma key_of_find (h : t.find k = some v) : key v = k :=
  (find_eq_some_iff.1 h).2

theorem find_put (t : Table key) (v : V) (k : K) :
    (t.put v).find k = if key v = k then some v else t.find k := by
  split
  · rename_i e
    exact find_eq_some_iff.2 ⟨mem_cons_self, e⟩
  · rename_i e
    apply Option.ext
    intro w
    rw [find_eq_some_iff, find_eq_some_iff]
    show (w ∈ v :: t.rows.filter _ ∧ _) ↔ _
    rw [mem_cons, mem_filter]
    constructor
    · rintro ⟨rfl | ⟨hw, -⟩, hk⟩
      · exact absurd hk e
      · exact ⟨hw, hk⟩
    · rintro ⟨hw, rfl⟩
      exact ⟨.inr ⟨hw, by simpa using fun h => e h.symm⟩, rfl⟩

@[simp] lemma find_put_self (t : Table key) (v : V) : (t.put v).find (key v) = some v := by
  rw [find_put, if_pos rfl]

lemma find_put_ne (h : key v ≠ k) : (t.put v).find k = t.find k := by
  rw [find_put, if_neg h]

variable (t : Table key)

def erase (k : K) : Table key where
  rows := t.rows.filter (key · ≠ k)
  nodup := t.nodup.sublist (filter_sublist.map key)

theorem find_erase (k k' : K) : (t.erase k).find k' = if k = k' then none else t.find k' := by
  apply Option.ext
  intro w
  rw [find_eq_some_iff]
  show (w ∈ t.rows.filter _ ∧ _) ↔ _
  rw [mem_filter]
  split
  · rename_i e
    subst e
    simp
  · rename_i e
    rw [find_eq_some_iff]
    constructor
    · rintro ⟨⟨hw, -⟩, hk⟩
      exact ⟨hw, hk⟩
    · rintro ⟨hw, rfl⟩
      exact ⟨⟨hw, by simpa using fun h => e h.symm⟩, rfl⟩

lemma put_erase (v : V) : (t.erase (key v)).put v = t.put v := by
  unfold put erase
  simp

/-! ## sizes -/

def size : Nat := t.rows.length

lemma perm_erase {t : Table key} {k : K} {v : V} (h : t.find k = some v) :
    t.rows.Perm (v :: (t.erase k).rows) := by
  obtain ⟨hv, rfl⟩ := find_eq_some_iff.1 h
  obtain ⟨a, b, hab⟩ := append_of_mem hv
  have hnodup := t.nodup
  rw [hab, map_append, map_cons, nodup_middle, nodup_cons, ← map_append, mem_map] at hnodup
  have hkeep : (a ++ b).filter (key · ≠ key v) = a ++ b := by
    rw [filter_eq_self]
    intro w hw
    simpa using fun e => hnodup.1 ⟨w, hw, e⟩
  have hrows : (t.erase (key v)).rows = a ++ b := by
    show t.rows.filter _ = _
    rw [hab, filter_append, filter_cons_of_neg (by simp), ← filter_append, hkeep]
  rw [hrows, hab]
  exact perm_middle

lemma erase_rows_of_none {t : Table key} {k : K} (h : t.find k = none) :
    (t.erase k).rows = t.rows := by
  show t.rows.filter _ = _
  rw [filter_eq_self]
  intro w hw
  simpa using find?_eq_none.1 h w hw

theorem size_erase (k : K) : (t.erase k).size + (if (t.find k).isSome then 1 else 0) = t.size := by
  cases h : t.find k with
  | none => rw [size, erase_rows_of_none h]; rfl
  | some v =>
    have := (perm_erase h).length_eq
    exact this.symm

theorem size_put (v : V) :
    (t.put v).size = t.size + (if (t.find (key v)).isSome then 0 else 1) := by
  have h := size_erase t (key v)
  have e : (t.put v).size = (t.erase (key v)).size + 1 := rfl
  split at h <;> rename_i hs <;> simp only [hs, if_true, if_false, Bool.false_eq_true] <;> omega

end Table
