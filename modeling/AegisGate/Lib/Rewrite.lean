import Mathlib.Data.List.Infix

/-!
# Leftmost replacement of matches in a list

A `Matcher` says which words match and, for a text, how long the match at its front is that a
search picks (leftmost-first and leftmost-longest engines pick differently; nothing here depends
on it).

* `find m s`  the position of the leftmost match;
* `replaceAll m rep s`  every leftmost match replaced, left to right, matches not overlapping.
-/

namespace Rewrite

open List

structure Matcher (α : Type*) where
  isMatch : List α → Prop
  /-- the length of the match picked at the front of a text -/
  len : List α → Option Nat
  len_le : ∀ {s n}, len s = some n → n ≤ s.length
  sound : ∀ {s n}, len s = some n → isMatch (s.take n)
  complete : ∀ {s n}, len s = none → ¬ isMatch (s.take n)

section
variable {α : Type*} (m : Matcher α)

def find : List α → Option Nat
  | [] => if (m.len []).isSome then some 0 else none
  | c :: s => if (m.len (c :: s)).isSome then some 0 else (find s).map (· + 1)

/-- `replaceFrom k b s`: `k` bytes of the last match are still to be skipped; `b` says that an
empty match is allowed here, which it is not right after another match -/
def replaceFrom (rep : List α) : Nat → Bool → List α → List α
  | 0, b, [] => if b && (m.len []).isSome then rep else []
  | _ + 1, _, [] => []
  | k + 1, b, _ :: s => replaceFrom rep k b s
  | 0, b, c :: s =>
    match m.len (c :: s) with
    | none => c :: replaceFrom rep 0 true s
    | some 0 => (if b then rep else []) ++ c :: replaceFrom rep 0 true s
    | some (n + 1) => rep ++ replaceFrom rep n false s

def replaceAll (rep s : List α) : List α := replaceFrom m rep 0 true s

end

def literal {α : Type*} [DecidableEq α] (w : List α) : Matcher α where
  isMatch s := s = w
  len s := if w.isPrefixOf s then some w.length else none
  len_le h := by
    split at h
    · next hp =>
      cases h
      exact ( isPrefixOf_iff_prefix.1 hp).length_le
    · cases h
  sound h := by
    split at h
    · next hp =>
      cases h
      exact (prefix_iff_eq_take.1 ( isPrefixOf_iff_prefix.1 hp)).symm
    · cases h
  complete h e := by
    split at h
    · cases h
    · next hp =>
      apply hp
      rw [ isPrefixOf_iff_prefix, ← e]
      exact take_prefix _ _

end Rewrite
