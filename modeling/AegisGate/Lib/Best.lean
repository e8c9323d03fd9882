import Mathlib.Order.Lattice
import Mathlib.Data.List.Basic

/-!
# The best elements of a list

* `best f l`  the elements of `l` with the highest value of `f`, which may be several;
* `choose n l`  one element of `l`, by a number: every element is chosen by some number.

`best_eq_filter`: when the elements with a property exceed all others and some are in the list, they
are the best ones.
-/

namespace Best

open List

section
variable {α ι : Type} [LinearOrder ι]

def best (f : α → ι) (l : List α) : List α := l.filter fun x => l.all fun y => f y ≤ f x

theorem best_eq_filter {f : α → ι} {l : List α} {p : α → Bool} {a : α} (ha : a ∈ l)
    (hsame : ∀ x, p x → f x = f a) (hless : ∀ x, p x = false → f x < f a) :
    best f l = l.filter p := by
  have hle : ∀ x, f x ≤ f a := by
    intro x
    cases hp : p x with
    | true => exact (hsame x hp).le
    | false => exact (hless x hp).le
  refine filter_congr fun x _ => ?_
  cases hp : p x with
  | true =>
    rw [all_eq_true]
    intro y _
    rw [hsame x hp]
    exact decide_eq_true (hle y)
  | false =>
    rw [all_eq_false]
    exact ⟨a, ha, by simpa using hless x hp⟩

end

section
variable {α : Type}

def choose (n : ℕ) (l : List α) : Option α := l[n % l.length]?

lemma choose_mem (n : ℕ) {l : List α} (hl : l ≠ []) : ∃ x ∈ l, choose n l = some x := by
  have hlt : n % l.length < l.length := Nat.mod_lt _ (length_pos_iff.2 hl)
  exact ⟨l[n % l.length], getElem_mem hlt, getElem?_eq_getElem hlt⟩

lemma choose_idxOf [DecidableEq α] {x : α} {l : List α} (hx : x ∈ l) :
    choose (l.idxOf x) l = some x := by
  unfold choose
  rw [Nat.mod_eq_of_lt (idxOf_lt_length_of_mem hx)]
  exact getElem?_idxOf hx

end

end Best
