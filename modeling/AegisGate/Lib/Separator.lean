import Mathlib.Data.List.Basic
import Mathlib.Data.List.Count

/-!
# Texts with separators

A text that is put together with separators can be taken apart where the separators do not occur in
the pieces.

* `split_first`, `split_last`  a text cut at the first, or the last, separator;
* `records a b l`  the pairs of `l`, each with `a` between its parts and `b` after it.

The records are determined by their text when no part has `a` in it and no first part has `b`
(`records_injOn`).  Among arbitrary lists, only the empty one and a single pair without `a` are
determined by their text (`records_unique_iff`): a longer list has the text of a single pair.
-/

namespace Separator

open List List

variable {α : Type*} {a b : α}

theorem split_first {x : List α} : ∀ {y xs ys : List α}, a ∉ x → a ∉ y →
    x ++ a :: xs = y ++ a :: ys → x = y ∧ xs = ys := by
  induction x with
  | nil =>
    intro y xs ys _ hy h
    cases y with
    | nil => exact ⟨rfl, (cons.inj h).2⟩
    | cons c y => exact absurd (cons.inj h).1 (ne_of_not_mem_cons hy)
  | cons c x ih =>
    intro y xs ys hx hy h
    cases y with
    | nil => exact absurd (cons.inj h).1.symm (ne_of_not_mem_cons hx)
    | cons d y =>
      obtain ⟨hc, htail⟩ := cons.inj h
      obtain ⟨hxy, hrest⟩ := ih (not_mem_of_not_mem_cons hx) (not_mem_of_not_mem_cons hy)
        htail
      exact ⟨by rw [hc, hxy], hrest⟩

theorem split_last {x y xs ys : List α} (hxs : a ∉ xs) (hys : a ∉ ys)
    (h : x ++ a :: xs = y ++ a :: ys) : x = y ∧ xs = ys := by
  have hrev : xs.reverse ++ a :: x.reverse = ys.reverse ++ a :: y.reverse := by
    simpa using congrArg reverse h
  obtain ⟨h1, h2⟩ := split_first (by simpa using hxs) (by simpa using hys) hrev
  exact ⟨reverse_injective h2, reverse_injective h1⟩

/-! ## records -/

def record (a b : α) (r : List α × List α) : List α := r.1 ++ a :: (r.2 ++ [b])

def records (a b : α) (l : List (List α × List α)) : List α := l.flatMap (record a b)

@[simp] lemma records_nil : records a b [] = [] := rfl

lemma records_cons (r : List α × List α) (l : List (List α × List α)) :
    records a b (r :: l) = r.1 ++ a :: (r.2 ++ b :: records a b l) := by
  simp [records, record]

lemma records_ne_nil {l : List (List α × List α)} (h : l ≠ []) : records a b l ≠ [] := by
  cases l with
  | nil => exact absurd rfl h
  | cons r l => simp [records_cons]

lemma records_eq_append {l : List (List α × List α)} (h : l ≠ []) :
    ∃ x, records a b l = x ++ [b] := by
  obtain ⟨init, r, rfl⟩ := (eq_nil_or_concat' l).resolve_left h
  exact ⟨records a b init ++ (r.1 ++ a :: r.2), by simp [records, record]⟩

/-- the parts are free of `a`, and the first parts of `b` -/
def Framed (a b : α) (l : List (List α × List α)) : Prop :=
  ∀ r ∈ l, a ∉ r.1 ∧ b ∉ r.1 ∧ a ∉ r.2

theorem records_injOn (hab : a ≠ b) (l : List (List α × List α)) : ∀ l', Framed a b l →
    Framed a b l' → records a b l = records a b l' → l = l' := by
  induction l with
  | nil =>
    intro l' _ _ h
    by_contra hne
    exact records_ne_nil (Ne.symm hne) h.symm
  | cons r l ih =>
    intro l' hl hl' h
    cases l' with
    | nil => exact absurd h (records_ne_nil (cons_ne_nil r l))
    | cons r' l' =>
      obtain ⟨hr, -, hc⟩ := hl r mem_cons_self
      obtain ⟨hr', -, hc'⟩ := hl' r' mem_cons_self
      rw [records_cons, records_cons] at h
      obtain ⟨h1, h2⟩ := split_first hr hr' h
      have htail : r.2 = r'.2 ∧ records a b l = records a b l' := by
        cases l with
        | nil =>
          cases l' with
          | nil => exact ⟨append_cancel_right h2, rfl⟩
          | cons s' l' =>
            -- only one side has a further `a`
            exfalso
            have hmem : a ∈ r.2 ++ b :: records a b [] := by
              rw [h2, records_cons]
              simp
            simp [hc, hab] at hmem
        | cons s l =>
          cases l' with
          | nil =>
            exfalso
            have hmem : a ∈ r'.2 ++ b :: records a b [] := by
              rw [← h2, records_cons]
              simp
            simp [hc', hab] at hmem
          | cons s' l' =>
            obtain ⟨hs, hsb, -⟩ := hl s (by simp)
            obtain ⟨hs', hsb', -⟩ := hl' s' (by simp)
            rw [records_cons, records_cons] at h2
            have hcut : (r.2 ++ b :: s.1) ++ a :: (s.2 ++ b :: records a b l) =
                (r'.2 ++ b :: s'.1) ++ a :: (s'.2 ++ b :: records a b l') := by
              simpa using h2
            obtain ⟨h3, h4⟩ := split_first (by simp [hc, hs, hab]) (by simp [hc', hs', hab]) hcut
            obtain ⟨h5, h6⟩ := split_last hsb hsb' h3
            exact ⟨h5, by rw [records_cons, records_cons, h6, h4]⟩
      have hl1 : l = l' := ih l' (fun s hs => hl s (mem_cons_of_mem _ hs))
        (fun s hs => hl' s (mem_cons_of_mem _ hs)) htail.2
      rw [hl1, Prod.ext h1 htail.1]

lemma record_of_mem {r : List α × List α} (h : a ∈ r.1 ∨ a ∈ r.2) :
    ∃ r', r' ≠ r ∧ record a b r' = record a b r := by
  rcases h with h | h
  · obtain ⟨x, y, hxy⟩ := append_of_mem h
    refine ⟨(x, y ++ a :: r.2), fun he => ?_, by simp [record, hxy]⟩
    have hlen := congrArg (length ∘ Prod.fst) he
    simp [hxy] at hlen
  · obtain ⟨x, y, hxy⟩ := append_of_mem h
    refine ⟨(r.1 ++ a :: x, y), fun he => ?_, by simp [record, hxy]⟩
    have hlen := congrArg (length ∘ Prod.fst) he
    simp at hlen

lemma length_le_count [DecidableEq α] (l : List (List α × List α)) :
    l.length ≤ (records a b l).count a := by
  induction l with
  | nil => exact Nat.zero_le _
  | cons r l ih =>
    rw [records_cons, count_append, count_cons_self, count_append, length_cons]
    have hle : (records a b l).count a ≤ (b :: records a b l).count a := count_le_count_cons
    omega

theorem records_unique_iff [DecidableEq α] (hab : a ≠ b) (l : List (List α × List α)) :
    (∀ l', records a b l' = records a b l → l' = l) ↔
      l = [] ∨ ∃ r, l = [r] ∧ a ∉ r.1 ∧ a ∉ r.2 := by
  constructor
  · intro h
    cases l with
    | nil => exact .inl rfl
    | cons r rest =>
      cases rest with
      | nil =>
        refine .inr ⟨r, rfl, ?_⟩
        by_contra hmem
        have hmem : a ∈ r.1 ∨ a ∈ r.2 := by tauto
        obtain ⟨r', hne, heq⟩ := record_of_mem (b := b) hmem
        exact hne (cons.inj (h [r'] (by simpa [records] using heq))).1
      | cons s rest =>
        -- the separators of the rest can be read as part of one long second part
        obtain ⟨x, hx⟩ := records_eq_append (a := a) (b := b) (cons_ne_nil s rest)
        have hone := h [(r.1, r.2 ++ b :: x)] (by simp [records_cons, hx])
        exact absurd (congrArg length hone) (by simp)
  · rintro (rfl | ⟨r, rfl, h1, h2⟩) l' h
    · by_contra hne
      exact records_ne_nil hne h
    · have hcount : (records a b [r]).count a = 1 := by
        simp [records_cons, count_append, count_eq_zero_of_not_mem h1,
          count_eq_zero_of_not_mem h2, hab.symm]
      have hlen := length_le_count (a := a) (b := b) l'
      rw [h, hcount] at hlen
      cases l' with
      | nil => exact absurd h.symm (records_ne_nil (cons_ne_nil r []))
      | cons r' l' =>
        have hnil : l' = [] := by
          rw [length_cons] at hlen
          exact length_eq_zero_iff.1 (by omega)
        subst hnil
        have hcount' : (records a b [r']).count a = 1 := by rw [h, hcount]
        rw [records_cons, count_append, count_cons_self, count_append] at hcount'
        have h1' : a ∉ r'.1 := fun hm => by
          have hpos := count_pos_iff.2 hm
          omega
        rw [records_cons, records_cons] at h
        obtain ⟨h3, h4⟩ := split_first h1' h1 h
        rw [Prod.ext h3 (append_cancel_right h4)]

end Separator
