import Mathlib.Data.List.Basic

/-!
# Positions in a list

A list that has an element at a position is split there, and what is done at the position is done to
the middle of the split.
-/

namespace Position

open List

variable {α : Type*} {y z : α} {i j : Nat} {l a b : List α}

lemma split_of_getElem? (h : l[i]? = some y) : ∃ a b, l = a ++ y :: b ∧ a.length = i := by
  obtain ⟨hi, rfl⟩ := List.getElem?_eq_some_iff.1 h
  refine ⟨l.take i, l.drop (i + 1), ?_, ?_⟩
  · rw [getElem_cons_drop, take_append_drop]
  · rw [length_take]
    omega

lemma set_split (a b : List α) (y z : α) : (a ++ y :: b).set a.length z = a ++ z :: b := by
  rw [set_append_right _ _ (Nat.le_refl _), Nat.sub_self, set_cons_zero]

lemma eraseIdx_split (a b : List α) (y : α) : (a ++ y :: b).eraseIdx a.length = a ++ b := by
  rw [eraseIdx_append_of_length_le (Nat.le_refl _), Nat.sub_self, eraseIdx_cons_zero]

lemma getD_split (a b : List α) (y d : α) : (a ++ y :: b).getD a.length d = y := by
  rw [getD_eq_getElem?_getD, getElem?_append_right (Nat.le_refl _), Nat.sub_self]
  rfl

lemma mem_of_mem_rest (y : α) (h : z ∈ a ++ b) : z ∈ a ++ y :: b :=
  perm_middle.mem_iff.2 (mem_cons_of_mem y h)

lemma mem_split_cases (h : z ∈ a ++ y :: b) : z ∈ a ++ b ∨ z = y :=
  (mem_cons.1 (perm_middle.mem_iff.1 h)).symm

lemma forall_mem_replace {P : α → Prop} (h : ∀ x ∈ a ++ y :: b, P x) (hz : P z) :
    ∀ x ∈ a ++ z :: b, P x := by
  intro x hx
  rcases mem_split_cases hx with hx | rfl
  · exact h x (mem_of_mem_rest y hx)
  · exact hz

lemma getElem?_set_cases (h : (l.set i y)[j]? = some z) :
    (j = i ∧ z = y) ∨ j ≠ i ∧ l[j]? = some z := by
  rw [getElem?_set] at h
  split at h
  · next hij =>
    split at h
    · cases h
      exact .inl ⟨hij.symm, rfl⟩
    · cases h
  · next hij => exact .inr ⟨fun hji => hij hji.symm, h⟩

lemma mem_set_cases (h : z ∈ l.set i y) : z = y ∨ ∃ j, j ≠ i ∧ l[j]? = some z := by
  obtain ⟨j, hj⟩ := mem_iff_getElem?.1 h
  rcases getElem?_set_cases hj with ⟨-, heq⟩ | ⟨hne, hj⟩
  · exact .inl heq
  · exact .inr ⟨j, hne, hj⟩

lemma mem_set_of_ne (hne : j ≠ i) (h : l[j]? = some z) : z ∈ l.set i y := by
  refine mem_of_getElem? (i := j) ?_
  rw [getElem?_set_ne (hne ·.symm)]
  exact h

lemma getElem?_set_of_some (h : l[i]? = some y) : (l.set i z)[i]? = some z := by
  obtain ⟨hi, -⟩ := List.getElem?_eq_some_iff.1 h
  exact getElem?_set_self hi

lemma set_of_getElem? (h : l[i]? = some y) : l.set i y = l := by
  obtain ⟨a, b, rfl, rfl⟩ := split_of_getElem? h
  exact set_split a b y y

end Position
