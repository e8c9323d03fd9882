import Mathlib.Data.List.Basic
import Mathlib.Tactic.Ring

/-!
# Bytes

Fixed-width words in little-endian order, lists of 32-bit words, hexadecimal digits, and the search
for the first occurrence of a text in a list.

* `le k v`  the `k` low bytes of `v`, the lowest first;  `ofLe` is its inverse modulo `256 ^ k`.
* `words`  the 32-bit words of a list of bytes;  `ofWords` is its inverse.
* `after n s`  what follows the first occurrence of `n` in `s`.
-/

namespace Bytes

open List UInt8 Nat

/-! ## words -/

def le : Nat → Nat → List UInt8
  | 0, _ => []
  | k + 1, v => ofNat v :: le k (v / 256)

def ofLe : List UInt8 → Nat
  | [] => 0
  | b :: bs => b.toNat + 256 * ofLe bs

variable (k v : Nat)

@[simp] lemma length_le : (le k v).length = k := by
  induction k generalizing v with
  | zero => rfl
  | succ k ih => simp [le, ih]

lemma ofLe_le : ofLe (le k v) = v % 256 ^ k := by
  induction k generalizing v with
  | zero => simp [le, ofLe, mod_one]
  | succ k ih =>
    have hb : (ofNat v).toNat = v % 256 := toNat_ofNat'
    rw [le, ofLe, ih, hb, pow_succ, mul_comm (256 ^ k), mod_mul]

lemma ofLe_take (rest : List UInt8) : ofLe ((le k v ++ rest).take k) = v % 256 ^ k := by
  rw [take_left' (length_le k v), ofLe_le]

lemma drop_le (rest : List UInt8) : (le k v ++ rest).drop k = rest :=
  drop_left' (length_le k v)

variable (ws : List UInt32)

def ofWords : List UInt8 := ws.flatMap fun w => le 4 w.toNat

/-- the words of a text; what is left over when its length is not a multiple of four is dropped -/
def words : List UInt8 → List UInt32
  | a :: b :: c :: d :: rest => UInt32.ofNat (ofLe [a, b, c, d]) :: words rest
  | _ => []

@[simp] lemma length_ofWords : (ofWords ws).length = 4 * ws.length := by
  induction ws with
  | nil => rfl
  | cons w ws ih =>
    rw [ofWords, flatMap_cons, length_append, length_le, length_cons]
    rw [ofWords] at ih
    omega

lemma length_words (s : List UInt8) : (words s).length = s.length / 4 := by
  fun_induction words s with
  | case1 a b c d rest ih =>
    simp only [length_cons, ih]
    omega
  | case2 s hs =>
    have hlt : s.length < 4 := by
      by_contra hge
      match s, hs, hge with
      | a :: b :: c :: d :: rest, hs, _ => exact hs a b c d rest rfl
      | [], _, hge | [_], _, hge | [_, _], _, hge | [_, _, _], _, hge => exact hge (by simp)
    rw [div_eq_of_lt hlt, length_nil]

lemma words_le_append (w : UInt32) (rest : List UInt8) :
    words (le 4 w.toNat ++ rest) = w :: words rest := by
  have hw : ofLe (le 4 w.toNat) = w.toNat := by
    rw [ofLe_le]
    exact mod_eq_of_lt w.toNat_lt
  have h : words (le 4 w.toNat ++ rest) = UInt32.ofNat (ofLe (le 4 w.toNat)) :: words rest := rfl
  rw [h, hw, UInt32.ofNat_toNat]

lemma words_ofWords : words (ofWords ws) = ws := by
  induction ws with
  | nil => rfl
  | cons w ws ih =>
    rw [ofWords, flatMap_cons, words_le_append]
    rw [ofWords] at ih
    rw [ih]

/-! ## hexadecimal digits -/

/-- the lower-case digit of a number below sixteen, as a byte -/
def hexDigit (d : Nat) : UInt8 := ofNat (if d < 10 then 48 + d else 87 + d)

def hexValue (c : UInt8) : Nat :=
  if 48 ≤ c ∧ c ≤ 57 then c.toNat - 48
  else if 97 ≤ c ∧ c ≤ 102 then c.toNat - 87
  else if 65 ≤ c ∧ c ≤ 70 then c.toNat - 55
  else 0

lemma hexValue_hexDigit : ∀ d < 16, hexValue (hexDigit d) = d := by decide

def hex (s : List UInt8) : List UInt8 :=
  s.flatMap fun b => [hexDigit (b.toNat / 16), hexDigit (b.toNat % 16)]

def unhex : List UInt8 → List UInt8
  | hi :: lo :: rest => ofNat (16 * hexValue hi + hexValue lo) :: unhex rest
  | _ => []

lemma unhex_hex (s : List UInt8) : unhex (hex s) = s := by
  induction s with
  | nil => rfl
  | cons b s ih =>
    have hb : b.toNat < 256 := b.toNat_lt
    have h : 16 * (b.toNat / 16) + b.toNat % 16 = b.toNat := div_add_mod _ _
    show ofNat (16 * hexValue (hexDigit (b.toNat / 16)) + hexValue (hexDigit (b.toNat % 16)))
      :: unhex (hex s) = b :: s
    rw [hexValue_hexDigit _ (by omega), hexValue_hexDigit _ (by omega), h, UInt8.ofNat_toNat, ih]

/-! ## the first occurrence of a text -/

section
variable {α : Type*} [DecidableEq α]

def after (needle : List α) : List α → Option (List α)
  | [] => if needle = [] then some [] else none
  | c :: s => if needle <+: c :: s then some ((c :: s).drop needle.length) else after needle s

lemma after_cons_of_not (needle : List α) (c : α) (s : List α) (h : ¬ needle <+: c :: s) :
    after needle (c :: s) = after needle s := if_neg h

lemma after_append_self (needle rest : List α) (h : needle ≠ []) :
    after needle (needle ++ rest) = some rest := by
  obtain ⟨c, cs, rfl⟩ := exists_cons_of_ne_nil h
  rw [cons_append, after, if_pos ⟨rest, rfl⟩, length_cons, drop_succ_cons, drop_left]

lemma length_le_of_after {needle s r : List α} (h : after needle s = some r) :
    needle.length ≤ s.length := by
  induction s with
  | nil =>
    rw [after] at h
    split at h
    · next hn => rw [hn]
    · cases h
  | cons c s ih =>
    rw [after] at h
    split at h
    · next hp => exact hp.length_le
    · exact le_succ_of_le (ih h)

lemma after_append (needle s r t : List α) (h : needle ≠ []) (hs : after needle s = some r) :
    after needle (s ++ t) = some (r ++ t) := by
  induction s with
  | nil => rw [after, if_neg h] at hs; cases hs
  | cons c s ih =>
    rw [after] at hs
    by_cases hp : needle <+: c :: s
    · rw [if_pos hp] at hs
      obtain ⟨u, hu⟩ := hp
      rw [← hu, drop_left] at hs
      rw [← hu, append_assoc, after_append_self _ _ h, ← Option.some.inj hs]
    · rw [if_neg hp] at hs
      have hq : ¬ needle <+: c :: (s ++ t) := fun hq =>
        hp (prefix_of_prefix_length_le hq (prefix_append (c :: s) t)
          (le_succ_of_le (length_le_of_after hs)))
      rw [cons_append, after_cons_of_not _ _ _ hq]
      exact ih hs

end

end Bytes
