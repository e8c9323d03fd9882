import Mathlib.Algebra.Order.Field.Rat
import Mathlib.Data.List.AList

/-!
# The token-bucket rate limiter

`src/gateway/rate_limiter.cpp` without a `RedisStateStore`, over `ℚ` instead of `double`.  One call of
`allow` reads the clock once: `now`.

* `Shard`, `RateLimiter`  the sixteen shards of buckets;
* `maybePrune`  the sweep that a new key triggers;
* `allow`  refill, then take the cost if the bucket holds it.
-/

namespace AegisGate

structure TokenBucket where
  tokens : ℚ
  maxTokens : ℚ
  refillRate : ℚ
  lastRefill : ℚ
  deriving DecidableEq

namespace RateLimiter

def kMaxBucketsPerShard : Nat := 10000
def kPruneIntervalOps : Nat := 1000
def kShardCount : Nat := 16

structure Config where
  maxTokens : ℚ := 100
  refillRate : ℚ := 10
  deriving DecidableEq

abbrev Buckets := AList (fun _ : String => TokenBucket)

structure Shard where
  buckets : Buckets := ∅
  opCounter : Nat := 0

end RateLimiter

structure RateLimiter where
  globalConfig : RateLimiter.Config
  shards : Fin RateLimiter.kShardCount → RateLimiter.Shard

namespace RateLimiter

def ofConfig (c : Config) : RateLimiter := ⟨c, fun _ => {}⟩

variable (hash : String → Nat)

/-- `hash` is `std::hash<std::string>` -/
def shardFor (key : String) : Fin kShardCount :=
  ⟨hash key % kShardCount, Nat.mod_lt _ (by decide)⟩

variable (now : ℚ)

def refill (b : TokenBucket) : TokenBucket :=
  { b with
    tokens := min b.maxTokens (b.tokens + (now - b.lastRefill) * b.refillRate)
    lastRefill := now }

variable (c : Config)

def fullBucket (now : ℚ) : TokenBucket := ⟨c.maxTokens, c.maxTokens, c.refillRate, now⟩

/-- full and untouched for more than 300 seconds -/
def prunable (b : TokenBucket) : Bool :=
  decide (b.maxTokens ≤ b.tokens) && decide (300 < now - b.lastRefill)

def sweep (bs : Buckets) : Buckets :=
  bs.keys.foldl (fun acc k =>
    match bs.lookup k with
    | some b => if prunable now b then acc.erase k else acc
    | none => acc) bs

def maybePrune (s : Shard) : Shard :=
  if s.opCounter + 1 < kPruneIntervalOps ∧ s.buckets.keys.length < kMaxBucketsPerShard then
    { s with opCounter := s.opCounter + 1 }
  else { buckets := sweep now s.buckets, opCounter := 0 }

/-- the shard with a bucket for `key`, and that bucket -/
def getBucket (now : ℚ) (s : Shard) (key : String) : Shard × TokenBucket :=
  match s.buckets.lookup key with
  | some b => (s, b)
  | none =>
    let s := maybePrune now s
    ({ s with buckets := s.buckets.insert key (fullBucket c now) }, fullBucket c now)

def allow (rl : RateLimiter) (key : String) (cost : ℚ) : RateLimiter × Bool :=
  if cost ≤ 0 then (rl, true)
  else
    let i := shardFor hash key
    let (s, b) := getBucket rl.globalConfig now (rl.shards i) key
    let b := refill now b
    let b' := if cost ≤ b.tokens then { b with tokens := b.tokens - cost } else b
    ({ rl with
        shards := Function.update rl.shards i { s with buckets := s.buckets.insert key b' } },
      decide (cost ≤ b.tokens))

def setKeyConfig (rl : RateLimiter) (key : String) (c : Config) : RateLimiter :=
  let i := shardFor hash key
  { rl with
    shards := Function.update rl.shards i
      { rl.shards i with buckets := (rl.shards i).buckets.insert key (fullBucket c now) } }

lemma refill_fullBucket (now : ℚ) : refill now (fullBucket c now) = fullBucket c now := by
  have e : c.maxTokens + (now - now) * c.refillRate = c.maxTokens := by
    rw [sub_self, zero_mul, add_zero]
  simp only [refill, fullBucket]
  rw [e, min_self]

lemma allow_ofConfig (key : String) {cost : ℚ}
    (h : 0 < cost) : (allow hash now (ofConfig c) key cost).2 ↔ cost ≤ c.maxTokens := by
  have hb : (getBucket c now ((ofConfig c).shards (shardFor hash key)) key).2
      = fullBucket c now := rfl
  unfold allow
  rw [if_neg h.not_ge]
  show decide (cost ≤ (refill now
    (getBucket c now ((ofConfig c).shards (shardFor hash key)) key).2).tokens) ↔ _
  rw [hb, refill_fullBucket, decide_eq_true_iff]
  rfl

end RateLimiter

end AegisGate
