import Mathlib.Tactic.Ring

/-!
# Identifiers of config versions

`Ulid` of the control plane: a timestamp of 48 bits and 80 random bits, five bits to a letter.

* `generateAt`  the identifier of a time, from the next two words of `rng_`;
* `decodeTimestamp`  the time of an identifier.

An identifier is the list of its characters, which are bytes in the source.
The loop over the random bits writes the number in the top of its register (`encodeRandom_eq`), so
that both parts are letters of a number, which they determine (`readFrom_encodeFixed`).
-/

namespace AegisGate.Ulid

open List Nat

def kAlphabet : List Char := "0123456789ABCDEFGHJKMNPQRSTVWXYZ".toList

def letter (chunk : ℕ) : Char := kAlphabet.getD chunk '0'

def encodeFixed (value : ℕ) : ℕ → List Char
  | 0 => []
  | n + 1 => encodeFixed (value >>> 5) n ++ [letter (value &&& 0x1F)]

/-- `none` for `-1` -/
def decodeChar (c : Char) : Option ℕ := kAlphabet.idxOf? c

/-- the register of 128 bits is `hi64` and `lo64` -/
def encodeRandom (hi64 lo64 : ℕ) : ℕ → List Char
  | 0 => []
  | i + 1 => letter (hi64 >>> 59 &&& 0x1F) ::
      encodeRandom (hi64 <<< 5 % 2 ^ 64 ||| lo64 >>> 59) (lo64 <<< 5 % 2 ^ 64) i

def generateAt (unixMillis : ℤ) (r1 r2 : Fin (2 ^ 64)) : List Char :=
  let ts := (unixMillis % 2 ^ 64).toNat &&& 0xFFFFFFFFFFFF
  encodeFixed ts 10 ++ encodeRandom r1 ((r2.val &&& 0xFFFF) <<< 48 % 2 ^ 64) 16

/-- ten letters are fifty bits, so that `ts` does not wrap round -/
def readFrom (ts : ℕ) (l : List Char) : Option ℕ :=
  l.foldlM (fun ts c => (decodeChar c).map (ts <<< 5 ||| ·)) ts

def decodeTimestamp (id : List Char) : Option ℤ :=
  if id.length ≠ 26 then none else (readFrom 0 (id.take 10)).map (↑)

/-! ## letters and numbers -/

lemma letter_spec : ∀ d d' : Fin 32, decodeChar (letter d) = some d.val ∧
    (d < d' → letter d < letter d') := by decide

lemma encodeFixed_succ (value count : ℕ) : encodeFixed value (count + 1) =
    encodeFixed (value / 32) count ++ [letter (value % 32)] := by
  rw [encodeFixed, shiftRight_eq_div_pow, ← and_two_pow_sub_one_eq_mod value 5]

lemma length_encodeFixed (count : ℕ) : ∀ value, (encodeFixed value count).length = count := by
  induction count with
  | zero => intro value; rfl
  | succ count ih => intro value; simp [encodeFixed, ih]

lemma readFrom_encodeFixed (count : ℕ) : ∀ {value : ℕ}, value < 32 ^ count →
    readFrom 0 (encodeFixed value count) = some value := by
  induction count with
  | zero => intro value h; simp [encodeFixed, readFrom, lt_one_iff.1 h]
  | succ count ih =>
    intro value h
    have hd : value % 32 < 2 ^ 5 := mod_lt _ (by decide)
    have hread : readFrom 0 (encodeFixed (value / 32) count) = some (value / 32) := ih (by omega)
    rw [readFrom] at hread
    rw [encodeFixed_succ, readFrom, foldlM_append, hread, Option.bind_eq_bind, Option.bind_some,
      foldlM_cons, (letter_spec ⟨_, hd⟩ 0).1]
    show some ((value / 32) <<< 5 ||| value % 32) = _
    rw [shiftLeft_eq, mul_comm, ← two_pow_add_eq_or_of_lt hd, div_add_mod]

lemma encodeFixed_lt (count : ℕ) : ∀ {value value' : ℕ} (r r' : List Char), value < value' →
    value' < 32 ^ count → encodeFixed value count ++ r < encodeFixed value' count ++ r' := by
  induction count with
  | zero => intro value value' r r' hlt hfits; omega
  | succ count ih =>
    intro value value' r r' hlt hfits
    rw [encodeFixed_succ, encodeFixed_succ, append_assoc, append_assoc]
    by_cases h : value / 32 = value' / 32
    · have hlast : value % 32 < value' % 32 := by omega
      rw [h]
      exact append_left_lt (cons_lt_cons_iff.2 (.inl ((letter_spec ⟨_, mod_lt _ (by decide)⟩
        ⟨_, mod_lt _ (by decide)⟩).2 hlast)))
    · exact ih _ _ (by omega) (by omega)

lemma encodeFixed_cons {d : ℕ} (hd : d < 32) (count : ℕ) : ∀ {value : ℕ}, value < 32 ^ count →
    encodeFixed (d * 32 ^ count + value) (count + 1) = letter d :: encodeFixed value count := by
  induction count with
  | zero =>
    intro value h
    rw [encodeFixed_succ, lt_one_iff.1 h, pow_zero, mul_one, add_zero, mod_eq_of_lt hd]
    rfl
  | succ count ih =>
    intro value h
    have hdiv : (d * 32 ^ count * 32 + value) / 32 = d * 32 ^ count + value / 32 := by omega
    have hmod : (d * 32 ^ count * 32 + value) % 32 = value % 32 := by omega
    rw [encodeFixed_succ, pow_succ, ← mul_assoc, hdiv, hmod, ih (by omega), encodeFixed_succ value]
    rfl

/-! ## the register -/

/-- a round takes the five top bits off the register -/
lemma register_round {hi64 lo64 : ℕ} (hhi : hi64 < 2 ^ 64) (hlo : lo64 < 2 ^ 64) :
    hi64 >>> 59 &&& 0x1F = (hi64 * 2 ^ 64 + lo64) * 32 / 2 ^ 128 ∧
      (hi64 <<< 5 % 2 ^ 64 ||| lo64 >>> 59) < 2 ^ 64 ∧
      (hi64 <<< 5 % 2 ^ 64 ||| lo64 >>> 59) * 2 ^ 64 + lo64 <<< 5 % 2 ^ 64 =
        (hi64 * 2 ^ 64 + lo64) * 32 % 2 ^ 128 := by
  have hnext : hi64 <<< 5 % 2 ^ 64 ||| lo64 >>> 59 = 2 ^ 5 * (hi64 % 2 ^ 59) + lo64 / 2 ^ 59 := by
    rw [two_pow_add_eq_or_of_lt (by omega), shiftRight_eq_div_pow, shiftLeft_eq]
    congr 1
    omega
  rw [hnext, and_two_pow_sub_one_eq_mod _ 5, shiftRight_eq_div_pow, shiftLeft_eq]
  omega

lemma encodeRandom_eq (n : ℕ) : ∀ {hi64 lo64 : ℕ}, hi64 < 2 ^ 64 → lo64 < 2 ^ 64 →
    encodeRandom hi64 lo64 n = encodeFixed ((hi64 * 2 ^ 64 + lo64) * 32 ^ n / 2 ^ 128) n := by
  induction n with
  | zero => intros; rfl
  | succ n ih =>
    intro hi64 lo64 hhi hlo
    obtain ⟨htop, hnext, hrest⟩ := register_round hhi hlo
    rw [encodeRandom, ih hnext (mod_lt _ (by decide)), hrest, htop, ← encodeFixed_cons (by omega)]
    · generalize hi64 * 2 ^ 64 + lo64 = R
      have hsplit : R * 32 ^ (n + 1) =
          R * 32 % 2 ^ 128 * 32 ^ n + R * 32 / 2 ^ 128 * 32 ^ n * 2 ^ 128 := by
        rw [mul_right_comm _ (32 ^ n), ← add_mul, mod_add_div', mul_assoc, ← Nat.pow_succ']
      rw [hsplit, add_mul_div_right _ _ (by decide), add_comm]
    · exact Nat.div_lt_of_lt_mul (Nat.mul_lt_mul_of_pos_right (mod_lt _ (by decide))
        (Nat.pow_pos (by decide)))

/-! ## identifiers -/

lemma generateAt_eq (t : Fin (2 ^ 48)) (r1 r2 : Fin (2 ^ 64)) : generateAt t.val r1 r2 =
    encodeFixed t 10 ++ encodeFixed (r1 * 2 ^ 16 + r2 % 2 ^ 16) 16 := by
  rw [generateAt, and_two_pow_sub_one_eq_mod _ 48, and_two_pow_sub_one_eq_mod _ 16, shiftLeft_eq,
    encodeRandom_eq 16 r1.isLt (mod_lt _ (by decide))]
  congr 2 <;> omega

/-- an identifier gives its time back, sorts by it, and determines it and the random bits -/
theorem generateAt_faithful (t t' : Fin (2 ^ 48)) (r1 r2 r1' r2' : Fin (2 ^ 64)) :
    decodeTimestamp (generateAt t.val r1 r2) = some (t.val : ℤ) ∧
      (t < t' → generateAt t.val r1 r2 < generateAt t'.val r1' r2') ∧
      (generateAt t.val r1 r2 = generateAt t'.val r1' r2' →
        t = t' ∧ r1 = r1' ∧ r2.val % 2 ^ 16 = r2'.val % 2 ^ 16) := by
  rw [generateAt_eq, generateAt_eq]
  refine ⟨?_, fun h => encodeFixed_lt 10 _ _ h (by omega), fun h => ?_⟩
  · rw [decodeTimestamp, if_neg (by simp [length_encodeFixed]),
      take_left' (length_encodeFixed 10 _), readFrom_encodeFixed 10 (by omega)]
    rfl
  · obtain ⟨htime, hwords⟩ := append_inj h (by rw [length_encodeFixed, length_encodeFixed])
    have ht := congrArg (readFrom 0) htime
    have hr := congrArg (readFrom 0) hwords
    rw [readFrom_encodeFixed 10 (by omega), readFrom_encodeFixed 10 (by omega)] at ht
    rw [readFrom_encodeFixed 16 (by omega), readFrom_encodeFixed 16 (by omega)] at hr
    have hsum := Option.some.inj hr
    exact ⟨Fin.ext (Option.some.inj ht), Fin.ext (by omega), by omega⟩

end AegisGate.Ulid
