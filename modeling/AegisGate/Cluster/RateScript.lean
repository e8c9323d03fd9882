import Mathlib.Tactic.NormNum
import AegisGate.Cluster.RedisBreaker
import AegisGate.Lib.Window

/-!
# The rate limit of a cluster

`RedisStateStore::rateLimitAllow` for one key, over `ℚ` instead of `double`.  A node reads its own
steady clock, in whole milliseconds, and sends it with the script `kRateLimitLua`, which Redis runs as
one step.  The key does not expire.

* `rateLimitLua`  refill, then take the cost if the bucket holds it;
* `RateCall`  a call of a node, at the real time when it reads its clock;
* `clusterAdmitted`  the calls that are admitted, in the order in which the scripts run.

The cost is within the rate when the readings advance no more than real time does
(`cluster_rate_bound`).  What a node with a slow clock has spent is refilled by the next call of a node
whose clock is ahead (`fast_clock_refills`).
-/

namespace AegisGate.Cluster

open Window

/-- the stored value; `lastRefill` in milliseconds -/
structure RateBucket where
  tokens : ℚ
  lastRefill : Int

open RateBucket

def rateLimitLua (maxTokens rate cost : ℚ) (now : Int) (raw : Option RateBucket) :
    Bool × RateBucket :=
  let tokens := (raw.map tokens).getD maxTokens
  let last := (raw.map lastRefill).getD now
  let elapsed : ℚ := (now - last : Int) / 1000
  let tokens := min maxTokens (tokens + elapsed * rate)
  if cost ≤ tokens then (true, ⟨tokens - cost, now⟩) else (false, ⟨tokens, now⟩)

/-- `RateLimiter::allow` hands on positive costs only; `time` is in nanoseconds -/
structure RateCall (ι : Type) where
  node : ι
  time : Int
  cost : ℚ
  pos : 0 < cost

open RateCall

section
variable {ι : Type} (offset : ι → Int) (maxTokens refillRate : ℚ)

def RateCall.seconds (c : RateCall ι) : ℚ := (c.time : ℚ) / 1000000000

def RateCall.nowMs (c : RateCall ι) : Int := milliseconds (c.time + offset c.node)

def rateLimitAllow (raw : Option RateBucket) (c : RateCall ι) : Bool × Option RateBucket :=
  let res := rateLimitLua maxTokens refillRate c.cost (c.nowMs offset) raw
  (res.1, some res.2)

def clusterAdmitted (l : List (RateCall ι)) : List (RateCall ι) :=
  Window.admitted (fun s c => (rateLimitAllow offset maxTokens refillRate s c).2)
    (fun s c => (rateLimitAllow offset maxTokens refillRate s c).1) none l

/-! ## the bucket by a clock -/

/-- the time of a call as the reading has it, in seconds -/
def RateCall.reading (c : RateCall ι) : ℚ := (c.nowMs offset : ℚ) / 1000

/-- the bucket after the script of a call that left so many tokens -/
def bucketAfter (last : RateCall ι × ℚ) : RateBucket := ⟨last.2, last.1.nowMs offset⟩

def runScript (last : Option (RateCall ι × ℚ)) (c : RateCall ι) : Bool × RateBucket :=
  rateLimitLua maxTokens refillRate c.cost (c.nowMs offset) (last.map (bucketAfter offset))

/-- from one call to the next the reading advances no more than real time -/
def Paced (c d : RateCall ι) : Prop := (d.nowMs offset - c.nowMs offset) * 1000000 ≤ d.time - c.time

lemma Paced.reading_le {c d : RateCall ι} (h : Paced offset c d) :
    d.reading offset - c.reading offset ≤ d.seconds - c.seconds := by
  have hms : ((d.nowMs offset : ℚ) - c.nowMs offset) * 1000000 ≤ d.time - c.time := by
    exact_mod_cast h
  unfold reading seconds
  linarith

lemma runScript_spec (last : Option (RateCall ι × ℚ)) (c : RateCall ι) :
    ∃ t, t ≤ maxTokens ∧
      (∀ p ∈ last, t ≤ p.2 + (c.reading offset - p.1.reading offset) * refillRate) ∧
      runScript offset maxTokens refillRate last c =
        if c.cost ≤ t then (true, ⟨t - c.cost, c.nowMs offset⟩) else (false, ⟨t, c.nowMs offset⟩) := by
  let raw := last.map (bucketAfter offset)
  refine ⟨min maxTokens ((raw.map tokens).getD maxTokens +
    ((c.nowMs offset - (raw.map lastRefill).getD (c.nowMs offset) : Int) / 1000 : ℚ)
      * refillRate), min_le_left _ _, ?_, rfl⟩
  rintro p rfl
  refine (min_le_right _ _).trans (le_of_eq ?_)
  simp only [raw, Option.map_some, Option.getD_some, bucketAfter, reading]
  push_cast
  ring

lemma clusterAdmitted_eq (l : List (RateCall ι)) : clusterAdmitted offset maxTokens refillRate l =
    Window.admitted (fun s c => some (c, (runScript offset maxTokens refillRate s c).2.tokens))
      (fun s c => (runScript offset maxTokens refillRate s c).1) none l := by
  refine (admitted_map _ _ (Option.map (bucketAfter offset)) (fun s c => ?_) (fun _ _ => rfl) l
    none).symm
  obtain ⟨t, -, -, heq⟩ := runScript_spec offset maxTokens refillRate s c
  have hraw : rateLimitAllow offset maxTokens refillRate (s.map (bucketAfter offset)) c =
    ((runScript offset maxTokens refillRate s c).1,
      some (runScript offset maxTokens refillRate s c).2) := rfl
  rw [hraw, heq]
  split <;> rfl

lemma metered_of_paced (hrate : 0 ≤ refillRate) :
    Metered (fun s c => some (c, (runScript offset maxTokens refillRate s c).2.tokens))
      (fun s c => (runScript offset maxTokens refillRate s c).1) seconds cost maxTokens refillRate
      (fun _ => True) (fun s c => ∀ p ∈ s, Paced offset p.1 c)
      (fun s x => ∃ p ∈ s, p.2 - refillRate * p.1.seconds ≤ x) := by
  refine ⟨fun _ _ _ _ => trivial, fun s c _ hpace => .inr ?_⟩
  obtain ⟨t, hmax, hline, heq⟩ := runScript_spec offset maxTokens refillRate s c
  refine ⟨t, hmax, c.pos.le, ?_, ?_, fun y => ?_⟩
  · rw [heq]
    split <;> simp_all
  · rintro x ⟨p, hp, hx⟩
    have hrefill := mul_le_mul_of_nonneg_right (hpace p hp).reading_le hrate
    have ht := hline p hp
    linarith
  · simp only [heq]
    split <;> simp

lemma along_of_isChain {R : RateCall ι → RateCall ι → Prop}
    {step : Option (RateCall ι × ℚ) → RateCall ι → ℚ} (l : List (RateCall ι)) : ∀ s,
    (∀ p ∈ s, ∀ c ∈ l.head?, R p.1 c) → l.IsChain R →
      Run.Along (fun s c => some (c, step s c)) (fun s c => ∀ p ∈ s, R p.1 c) s l := by
  induction l with
  | nil => intro s _ _; trivial
  | cons c l ih =>
    intro s hs hl
    obtain ⟨hnext, hl⟩ := List.isChain_cons.1 hl
    refine ⟨fun p hp => hs p hp c rfl, ih _ ?_ hl⟩
    rintro p ⟨⟩
    exact hnext

/-- in real time, when no reading is further ahead of it than the reading before was -/
theorem cluster_rate_bound (hmax : 0 ≤ maxTokens) (hrate : 0 < refillRate) (l : List (RateCall ι))
    (hpace : l.IsChain fun c d =>
      (d.nowMs offset - c.nowMs offset) * 1000000 ≤ d.time - c.time) :
    WithinRate seconds cost maxTokens refillRate
      (clusterAdmitted offset maxTokens refillRate l) := by
  rw [clusterAdmitted_eq]
  exact (metered_of_paced offset maxTokens refillRate hrate.le).withinRate hrate.le hmax l none
    trivial (along_of_isChain l none nofun hpace)

end

def tenTokens (node : Bool) : RateCall Bool := ⟨node, 0, 10, by norm_num⟩

def oneToken (node : Bool) (time : Int) : RateCall Bool := ⟨node, time, 1, by norm_num⟩

/-- two nodes with one clock, at 0, at half a millisecond and half a millisecond after a second: the
second call finds the bucket empty -/
theorem same_clock_bound :
    WithinRate seconds cost 10 1 (clusterAdmitted (fun _ => 5000000) 10 1
      [tenTokens false, oneToken false 500000, oneToken true 1000500000]) :=
  cluster_rate_bound (fun _ => 5000000) 10 1 (by norm_num) (by norm_num) _ (by decide)

/-- the clock of the second node is ten seconds ahead: at one instant both take a full bucket -/
theorem fast_clock_refills :
    ¬ WithinRate seconds cost 10 1
      (clusterAdmitted (fun node => if node then 10000000000 else 0) 10 1
        [tenTokens false, tenTokens true]) := by
  intro h
  have h0 := h 0 0 (le_refl 0)
  revert h0
  decide +kernel

end AegisGate.Cluster
