import AegisGate.Lib.Run

/-!
# The keys of a provider

`src/gateway/balancer.cpp`: smooth weighted round robin over the healthy keys of a provider.  A key
that fails three times in a row is out for thirty seconds.  The rules for another try with the next
key are in `src/gateway/connector/base.h`.

* `isRetryableStatus`, `canRetryStream` what the connectors ask before they try the next key;
* `nextKey`  the recovery of cooled-down keys, then the loop over the healthy ones;
* `reportSuccess`, `reportFailure`
  what the connectors report; a key that is configured twice is counted at its last position;
* `nextKey_leader`  … is the one that is returned.

Times are seconds of the steady clock.  Weights are integers without a bound.
-/

namespace AegisGate

open List

/-! ## which failures are worth another key -/

def isRetryableStatus (status : Int) : Bool :=
  status = 401 || status = 403 || status = 408 || status = 409 || status = 429 || 500 ≤ status

/-- `max_retries` and the first try -/
def maxAttempts (maxRetries : Int) : Nat := if 0 < maxRetries then maxRetries.toNat + 1 else 1

def canRetryStream (firstChunkSeen : Bool) (lastStatus : Int) (triedSize maxAttempts : Nat) : Bool :=
  if firstChunkSeen then false
  else if maxAttempts ≤ triedSize then false
  else if lastStatus = 0 then true
  else if lastStatus = -1 then true
  else isRetryableStatus lastStatus

/-! ## the state of a key -/

structure KeyState where
  key : String
  weight : Int := 1
  /-- the current weight of the round robin -/
  cw : Int := 0
  healthy : Bool := true
  consecutiveFailures : Nat := 0
  cooldownUntil : Int := 0
  deriving DecidableEq

open KeyState

structure Balancer where
  keys : List KeyState := []
  deriving DecidableEq

def kMaxConsecutiveFailures : Nat := 3

def kCooldownSeconds : Int := 30

namespace KeyState

/-- a key is back when its cooldown is over -/
def recover (now : Int) (k : KeyState) : KeyState :=
  if !k.healthy && k.cooldownUntil ≤ now then
    { k with healthy := true, consecutiveFailures := 0, cw := 0 }
  else k

variable (k : KeyState)

def share : Int := if 0 < k.weight then k.weight else 1

def standing : String × Bool := (k.key, k.healthy)

def raised : KeyState := { k with cw := k.cw + k.share }

def succeeded : KeyState := { k with consecutiveFailures := 0, healthy := true }

def failed (now : Int) (k : KeyState) : KeyState :=
  if kMaxConsecutiveFailures ≤ k.consecutiveFailures + 1 then
    { k with
      consecutiveFailures := k.consecutiveFailures + 1
      healthy := false
      cooldownUntil := now + kCooldownSeconds }
  else { k with consecutiveFailures := k.consecutiveFailures + 1 }

lemma share_pos : 0 < k.share := by
  unfold share
  split
  · next h => exact h
  · exact Int.one_pos

end KeyState

namespace Balancer

def ofKeys (keys : List (String × Int)) : Balancer :=
  ⟨keys.map (fun k => { key := k.1, weight := k.2 })⟩

/-! ## the round robin -/

/-- the variables of the loop; `best` is a position and the key there -/
structure Scan where
  keys : List KeyState := []
  total : Int := 0
  best : Option (Nat × KeyState) := none

def Scan.visit (s : Scan) (k : KeyState) : Scan :=
  if k.healthy then
    { keys := s.keys ++ [k.raised]
      total := s.total + k.share
      best :=
        match s.best with
        | none => some (s.keys.length, k.raised)
        | some (i, best) =>
          if best.cw < k.raised.cw then some (s.keys.length, k.raised) else some (i, best) }
  else { s with keys := s.keys ++ [k] }

section
variable (b : Balancer)

def recovered (now : Int) : List KeyState := b.keys.map (recover now)

def scan (now : Int) : Scan := Run.exec Scan.visit {} (b.recovered now)

def nextKey (now : Int) : String × Balancer :=
  let s := b.scan now
  match s.best with
  | none => ("", ⟨s.keys⟩)
  | some (i, best) =>
    if s.total = 0 then ("", ⟨s.keys⟩)
    else (best.key, ⟨s.keys.modify i (fun k => { k with cw := k.cw - s.total })⟩)

/-! ## reports -/

/-- `key_index_`: the last position of a key -/
def keyIndex (key : String) : List KeyState → Option Nat
  | [] => none
  | k :: ks =>
    match keyIndex key ks with
    | some i => some (i + 1)
    | none => if k.key = key then some 0 else none

def update (key : String) (f : KeyState → KeyState) : Balancer :=
  match keyIndex key b.keys with
  | none => b
  | some i => ⟨b.keys.modify i f⟩

def reportSuccess (key : String) : Balancer := b.update key succeeded

def reportFailure (key : String) (now : Int) : Balancer :=
  b.update key (failed now)

end

/-! ## the key that is next -/

/-- a healthy key at position `i` with the greatest weight after the round, the first of those -/
structure Leader (ks : List KeyState) (i : Nat) (k : KeyState) : Prop where
  at_position : ks[i]? = some k
  healthy : k.healthy
  before : ∀ j k', j < i → ks[j]? = some k' → k'.healthy → k'.raised.cw < k.raised.cw
  behind : ∀ j k', i ≤ j → ks[j]? = some k' → k'.healthy → k'.raised.cw ≤ k.raised.cw

structure Scanned (ks : List KeyState) (s : Scan) : Prop where
  length : s.keys.length = ks.length
  none_healthy : s.best = none → ∀ k ∈ ks, k.healthy = false
  leader : ∀ i best, s.best = some (i, best) → 0 < s.total ∧ ∃ k, Leader ks i k ∧ best = k.raised
  total_nonneg : 0 ≤ s.total

section
variable {ks : List KeyState} {k : KeyState} {i : Nat}

lemma Leader.append {k' : KeyState} (h : Leader ks i k)
    (hk' : k'.healthy → k'.raised.cw ≤ k.raised.cw) : Leader (ks ++ [k']) i k := by
  have hi : i < ks.length := (List.getElem?_eq_some_iff.1 h.at_position).1
  refine ⟨(getElem?_append_left hi).trans h.at_position, h.healthy, ?_, ?_⟩
  · intro j k1 hj hk1
    rw [getElem?_append_left (by omega)] at hk1
    exact h.before j k1 hj hk1
  · intro j k1 hj hk1
    rcases Nat.lt_or_ge j ks.length with hlt | hge
    · rw [getElem?_append_left hlt] at hk1
      exact h.behind j k1 hj hk1
    · rw [getElem?_append_right hge] at hk1
      rw [mem_singleton.1 (mem_of_getElem? hk1)]
      exact hk'

lemma Leader.last (hk : k.healthy) (hbeats : ∀ k' ∈ ks, k'.healthy → k'.raised.cw < k.raised.cw) :
    Leader (ks ++ [k]) ks.length k := by
  refine ⟨getElem?_concat_length, hk, ?_, ?_⟩
  · intro j k1 hj hk1
    rw [getElem?_append_left hj] at hk1
    exact hbeats k1 (mem_of_getElem? hk1)
  · intro j k1 hj hk1 _
    rw [getElem?_append_right hj] at hk1
    rw [mem_singleton.1 (mem_of_getElem? hk1)]

lemma Leader.le (h : Leader ks i k) : ∀ k' ∈ ks, k'.healthy → k'.raised.cw ≤ k.raised.cw := by
  intro k' hk' hhealthy
  obtain ⟨j, hj⟩ := getElem?_of_mem hk'
  rcases Nat.lt_or_ge j i with hlt | hge
  · exact (h.before j k' hlt hj hhealthy).le
  · exact h.behind j k' hge hj hhealthy

lemma Scanned.visit {s : Scan} (h : Scanned ks s) (k : KeyState) :
    Scanned (ks ++ [k]) (s.visit k) := by
  unfold Scan.visit
  split
  · next hk =>
    have hpos := k.share_pos
    have htotal : 0 < s.total + k.share := by have := h.total_nonneg; omega
    refine ⟨by simp [h.length], ?_, ?_, htotal.le⟩
    · intro hnone
      split at hnone
      · cases hnone
      · split at hnone <;> cases hnone
    · intro i best hbest
      refine ⟨htotal, ?_⟩
      split at hbest
      · next hnone =>
        cases hbest
        rw [h.length]
        refine ⟨k, Leader.last hk fun k' hk' hh => ?_, rfl⟩
        rw [h.none_healthy hnone k' hk'] at hh
        cases hh
      · next i0 best0 hsome =>
        obtain ⟨_, k0, hlead, rfl⟩ := h.leader i0 best0 hsome
        split at hbest
        · next hlt =>
          cases hbest
          rw [h.length]
          exact ⟨k, Leader.last hk fun k' hk' hh => (hlead.le k' hk' hh).trans_lt hlt, rfl⟩
        · next hge =>
          cases hbest
          exact ⟨k0, hlead.append fun _ => Int.not_lt.1 hge, rfl⟩
  · next hk =>
    refine ⟨by simp [h.length], ?_, ?_, h.total_nonneg⟩
    · intro hnone
      exact forall_mem_append.2
        ⟨h.none_healthy hnone, forall_mem_singleton.2 (Bool.eq_false_iff.2 hk)⟩
    · intro i best hbest
      obtain ⟨htotal, k0, hlead, hraised⟩ := h.leader i best hbest
      exact ⟨htotal, k0, hlead.append (absurd · hk), hraised⟩

end

lemma scanned_scan (b : Balancer) (now : Int) : Scanned (b.recovered now) (b.scan now) := by
  refine Run.exec_inv_inputs (I := Scanned) ?_ (fun l s k h => h.visit k) _
  exact ⟨rfl, fun _ => forall_mem_nil _, nofun, le_refl _⟩

section
variable {b : Balancer} {now : Int}

lemma exists_leader {k : KeyState} (hk : k ∈ b.recovered now) (hhealthy : k.healthy) :
    ∃ i k', Leader (b.recovered now) i k' ∧ (b.nextKey now).1 = k'.key := by
  have hscan := scanned_scan b now
  unfold nextKey
  dsimp only
  split
  · next hnone =>
    rw [hscan.none_healthy hnone k hk] at hhealthy
    cases hhealthy
  · next i best hsome =>
    obtain ⟨htotal, k', hlead, rfl⟩ := hscan.leader i best hsome
    rw [if_neg htotal.ne']
    exact ⟨i, k', hlead, rfl⟩

lemma nextKey_keys (b : Balancer) (now : Int) :
    (b.nextKey now).2.keys.map standing = (b.recovered now).map standing := by
  have hscan : (b.scan now).keys.map standing = (b.recovered now).map standing := by
    refine Run.exec_inv_inputs (I := fun (ks : List KeyState) (s : Scan) =>
      s.keys.map standing = ks.map standing) rfl (fun ks s k h => ?_) _
    unfold Scan.visit
    split
    · rw [map_append, map_append, h]
      rfl
    · rw [map_append, map_append, h]
  have hlowered : ∀ (ks : List KeyState) (i : Nat) (total : Int),
      (ks.modify i fun k => { k with cw := k.cw - total }).map standing = ks.map standing := by
    intro ks
    induction ks with
    | nil =>
      intro i total
      rw [modify_nil]
    | cons k ks ih =>
      intro i total
      cases i with
      | zero => rfl
      | succ i => rw [modify_succ_cons, map_cons, map_cons, ih]
  unfold nextKey
  dsimp only
  split
  · exact hscan
  split
  · exact hscan
  · rw [hlowered, hscan]

lemma Leader.unique {ks : List KeyState} {i j : Nat} {k k' : KeyState} (h : Leader ks i k)
    (h' : Leader ks j k') : k = k' := by
  have hij : i = j := by
    rcases Nat.lt_trichotomy i j with hlt | heq | hgt
    · exact absurd (h'.before i k hlt h.at_position h.healthy)
        (Int.not_lt.2 (h.le k' (mem_of_getElem? h'.at_position) h'.healthy))
    · exact heq
    · exact absurd (h.before j k' hgt h'.at_position h'.healthy)
        (Int.not_lt.2 (h'.le k (mem_of_getElem? h.at_position) h.healthy))
  subst hij
  exact Option.some.inj (h.at_position.symm.trans h'.at_position)

theorem nextKey_leader {i : Nat} {k : KeyState} (h : Leader (b.recovered now) i k) :
    (b.nextKey now).1 = k.key := by
  obtain ⟨j, k', h', hkey⟩ := exists_leader (mem_of_getElem? h.at_position) h.healthy
  rw [hkey, h.unique h']

end

end Balancer
end AegisGate
