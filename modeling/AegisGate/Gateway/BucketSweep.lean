import Mathlib.Tactic.Linarith
import AegisGate.Gateway.RateLimiter
import AegisGate.Lib.Run

/-!
# What a sweep removes

A new key may start a sweep over the buckets of its shard.  The sweep goes by the tokens that are
stored, and a bucket is refilled only when it is used.

* `Sweeps`  the next new key sweeps the shard;
* `Due`  a bucket that is idle for more than 300 seconds and would be full after a refill;
* `serve`  a call of `allow` on the shard of its key;
* `Reclaims`  a call for a new key removes what is due.

In every run the sweeps take the due buckets exactly when they are stored as full
(`due_removed_iff`), and only a call that a full bucket refuses stores it so.  Ten thousand keys that
are used once stay for good (`idle_keys_stay`).
-/

namespace AegisGate.RateLimiter

open List AList

/-! ## the sweep -/

lemma lookup_foldl_erase {f : Buckets → String → Buckets} (stale : String → Bool)
    (hf : ∀ bs k, f bs k = if stale k then bs.erase k else bs) (k : String) (ks : List String) :
    ∀ bs : Buckets, (ks.foldl f bs).lookup k = if k ∈ ks ∧ stale k then none else bs.lookup k := by
  induction ks with
  | nil => intro bs; simp
  | cons x ks ih =>
    intro bs
    rw [foldl_cons, ih, hf]
    by_cases hx : x = k
    · subst hx
      by_cases hs : stale x <;> simp [hs]
    · have hstep : (if stale x then bs.erase x else bs).lookup k = bs.lookup k := by
        split
        · exact lookup_erase_ne (Ne.symm hx)
        · rfl
      simp [hstep, Ne.symm hx]

lemma lookup_sweep (now : ℚ) (bs : Buckets) (k : String) :
    (sweep now bs).lookup k = (bs.lookup k).filter (!prunable now ·) := by
  refine (lookup_foldl_erase (fun x => (bs.lookup x).any (prunable now))
    (fun acc x => ?_) k bs.keys bs).trans ?_
  · cases bs.lookup x <;> rfl
  · cases h : bs.lookup k with
    | none => simp
    | some b =>
      have hmem : k ∈ bs.keys := lookup_isSome.1 (by rw [h]; rfl)
      by_cases hp : prunable now b <;> simp [hmem, hp, Option.filter]

lemma sweep_eq_self {now : ℚ} {bs : Buckets}
    (h : ∀ k b, bs.lookup k = some b → prunable now b = false) : sweep now bs = bs := by
  refine Run.exec_fixed (fun k => ?_) bs.keys
  split
  · next b hb => rw [h k b hb, if_neg Bool.false_ne_true]
  · rfl

lemma keys_sweep_nil {now : ℚ} {bs : Buckets}
    (h : ∀ k b, bs.lookup k = some b → prunable now b) : (sweep now bs).keys = [] := by
  refine eq_nil_iff_forall_not_mem.2 fun k hk => ?_
  have hsome : ((sweep now bs).lookup k).isSome := lookup_isSome.2 hk
  rw [lookup_sweep] at hsome
  cases hb : bs.lookup k with
  | none => simp [hb] at hsome
  | some b => simp [hb, h k b hb] at hsome

/-! ## a call on its shard -/

def Sweeps (s : Shard) : Prop :=
  ¬ (s.opCounter + 1 < kPruneIntervalOps ∧ s.buckets.keys.length < kMaxBucketsPerShard)

instance (s : Shard) : Decidable (Sweeps s) := inferInstanceAs (Decidable (¬ _))

def spend (cost : ℚ) (b : TokenBucket) : TokenBucket :=
  if cost ≤ b.tokens then { b with tokens := b.tokens - cost } else b

def serve (c : Config) (now : ℚ) (s : Shard) (key : String) (cost : ℚ) : Shard :=
  { (getBucket c now s key).1 with
    buckets := (getBucket c now s key).1.buckets.insert key
      (spend cost (refill now (getBucket c now s key).2)) }

section
variable {hash : String → Nat} {now cost : ℚ} {rl : RateLimiter} {key : String}

lemma shards_allow (h : 0 < cost) : (allow hash now rl key cost).1.shards =
    Function.update rl.shards (shardFor hash key)
      (serve rl.globalConfig now (rl.shards (shardFor hash key)) key cost) := by
  unfold allow
  rw [if_neg (not_le.2 h)]
  rfl

variable (c : Config) (now : ℚ) (s : Shard) (key : String)

lemma getBucket_snd :
    (getBucket c now s key).2 = (s.buckets.lookup key).getD (fullBucket c now) := by
  unfold getBucket
  split <;> rename_i h <;> rw [h] <;> rfl

lemma lookup_getBucket {k : String} (hk : k ≠ key) :
    (getBucket c now s key).1.buckets.lookup k = if s.buckets.lookup key = none ∧ Sweeps s then
        (s.buckets.lookup k).filter (!prunable now ·) else s.buckets.lookup k := by
  unfold getBucket maybePrune Sweeps
  cases hkey : s.buckets.lookup key with
  | some b => simp
  | none =>
    simp only [true_and]
    rw [lookup_insert_ne hk]
    split
    · rfl
    · exact lookup_sweep now s.buckets k

lemma lookup_serve_self (cost : ℚ) : (serve c now s key cost).buckets.lookup key =
    some (spend cost (refill now ((s.buckets.lookup key).getD (fullBucket c now)))) := by
  unfold serve
  rw [lookup_insert, getBucket_snd]

lemma lookup_serve_ne (cost : ℚ) {k : String} (hk : k ≠ key) :
    (serve c now s key cost).buckets.lookup k = if s.buckets.lookup key = none ∧ Sweeps s then
        (s.buckets.lookup k).filter (!prunable now ·) else s.buckets.lookup k := by
  unfold serve
  rw [lookup_insert_ne hk, lookup_getBucket c now s key hk]

end

/-! ## due buckets -/

def Due (now : ℚ) (b : TokenBucket) : Prop :=
  300 < now - b.lastRefill ∧ b.maxTokens ≤ (refill now b).tokens

lemma Due.prunable_iff {now : ℚ} {b : TokenBucket} (h : Due now b) :
    prunable now b ↔ b.maxTokens ≤ b.tokens := by
  simp [prunable, h.1]

def AllDue (now : ℚ) (s : Shard) : Prop := ∀ k b, s.buckets.lookup k = some b → Due now b

def StoredFull (now : ℚ) (s : Shard) : Prop :=
  ∀ k b, s.buckets.lookup k = some b → Due now b → b.maxTokens ≤ b.tokens

lemma spend_full_iff (b : TokenBucket) (now : ℚ) {cost : ℚ} (hcost : 0 < cost) :
    (spend cost (refill now b)).maxTokens ≤ (spend cost (refill now b)).tokens ↔
      b.maxTokens ≤ (refill now b).tokens ∧ (refill now b).tokens < cost := by
  have hle : (refill now b).tokens ≤ b.maxTokens := min_le_left _ _
  unfold spend
  split
  · next hpaid =>
    refine iff_of_false (fun hfull => ?_) fun h => absurd hpaid (not_le.2 h.2)
    have hmax : b.maxTokens ≤ (refill now b).tokens - cost := hfull
    linarith
  · next hrefused => exact (and_iff_left (not_le.1 hrefused)).symm

lemma keys_serve_length {c : Config} {now cost : ℚ} {s : Shard} {key : String}
    (hnew : s.buckets.lookup key = none) (hdue : AllDue now s)
    (hfull : Sweeps s → StoredFull now s) :
    (serve c now s key cost).buckets.keys.length ≤ kMaxBucketsPerShard := by
  have hserve : (serve c now s key cost).buckets.keys.length ≤
      (maybePrune now s).buckets.keys.length + 1 := by
    unfold serve getBucket
    rw [hnew]
    simp only [insert_insert]
    rw [keys_insert, length_cons]
    exact Nat.add_le_add_right length_erase_le 1
  refine hserve.trans ?_
  unfold maybePrune
  split
  · next hfew => exact hfew.2
  · next hfew =>
    have hnil : (sweep now s.buckets).keys = [] := keys_sweep_nil (fun k b hb =>
      (hdue k b hb).prunable_iff.2 (hfull hfew k b hb (hdue k b hb)))
    rw [hnil]
    decide

lemma reclaims_iff (hash : String → Nat) (rl : RateLimiter) (now : ℚ) (key : String) {cost : ℚ}
    (hcost : 0 < cost) (hnew : (rl.shards (shardFor hash key)).buckets.lookup key = none) :
    ((Sweeps (rl.shards (shardFor hash key)) →
        ∀ k b, (rl.shards (shardFor hash key)).buckets.lookup k = some b → Due now b →
          ((allow hash now rl key cost).1.shards (shardFor hash key)).buckets.lookup k = none) ∧
      (AllDue now (rl.shards (shardFor hash key)) →
        ((allow hash now rl key cost).1.shards (shardFor hash key)).buckets.keys.length ≤
          kMaxBucketsPerShard)) ↔ (Sweeps (rl.shards (shardFor hash key)) →
        StoredFull now (rl.shards (shardFor hash key))) := by
  rw [shards_allow hcost, Function.update_self]
  generalize rl.shards (shardFor hash key) = s at hnew ⊢
  have hlookup : Sweeps s → ∀ k b, s.buckets.lookup k = some b →
      (serve rl.globalConfig now s key cost).buckets.lookup k =
        (some b).filter (!prunable now ·) := by
    intro hsweep k b hb
    have hk : k ≠ key := by
      rintro rfl
      rw [hnew] at hb
      cases hb
    rw [lookup_serve_ne _ _ _ _ _ hk, if_pos ⟨hnew, hsweep⟩, hb]
  constructor
  · intro h hsweep k b hb hdue
    have hgone := h.1 hsweep k b hb hdue
    rw [hlookup hsweep k b hb] at hgone
    refine hdue.prunable_iff.1 ?_
    by_contra hkept
    simp [Option.filter, hkept] at hgone
  · intro h
    refine ⟨fun hsweep k b hb hdue => ?_, fun hall => keys_serve_length hnew hall h⟩
    rw [hlookup hsweep k b hb]
    simp [Option.filter, hdue.prunable_iff.2 (h hsweep k b hb hdue)]

/-! ## runs of calls -/

structure AllowCall where
  now : ℚ
  key : String
  cost : ℚ

section
variable (hash : String → Nat) (rl : RateLimiter)

section
variable (e : AllowCall)

def step : RateLimiter := (allow hash e.now rl e.key e.cost).1

def shardOf : Shard := rl.shards (shardFor hash e.key)

/-- a new key: its sweep removes every due bucket, and leaves a shard of due buckets only with at most
`kMaxBucketsPerShard` -/
def Reclaims : Prop :=
  (shardOf hash rl e).buckets.lookup e.key = none →
    (Sweeps (shardOf hash rl e) → ∀ k b, (shardOf hash rl e).buckets.lookup k = some b →
      Due e.now b → (shardOf hash (step hash rl e) e).buckets.lookup k = none) ∧
    (AllDue e.now (shardOf hash rl e) →
      (shardOf hash (step hash rl e) e).buckets.keys.length ≤ kMaxBucketsPerShard)

/-- the call leaves its bucket full exactly when the bucket was, and the call asked for more -/
def StoresFull : Prop :=
  let b := ((shardOf hash rl e).buckets.lookup e.key).getD (fullBucket rl.globalConfig e.now)
  ∀ b', (shardOf hash (step hash rl e) e).buckets.lookup e.key = some b' →
    (b'.maxTokens ≤ b'.tokens ↔
      b.maxTokens ≤ (refill e.now b).tokens ∧ (refill e.now b).tokens < e.cost)

lemma storesFull (hcost : 0 < e.cost) : StoresFull hash rl e := by
  intro b' hb'
  rw [shardOf, step, shards_allow hcost, Function.update_self, lookup_serve_self] at hb'
  obtain rfl := Option.some.inj hb'
  exact spend_full_iff _ e.now hcost

end

/-- in every run of calls, those for new keys reclaim what is due exactly when at each of their sweeps
the due buckets are stored as full; and a call stores its bucket as full only when it is refused by a
full one -/
theorem due_removed_iff (l : List AllowCall) (hl : ∀ e ∈ l, 0 < e.cost) :
    (Run.Along (step hash) (Reclaims hash) rl l ↔ Run.Along (step hash) (fun rl e =>
      (shardOf hash rl e).buckets.lookup e.key = none → Sweeps (shardOf hash rl e) →
        StoredFull e.now (shardOf hash rl e)) rl l) ∧
    Run.Along (step hash) (StoresFull hash) rl l :=
  ⟨Run.along_congr (I := fun _ => True) (fun rl e _ he => forall_congr' fun hnew =>
      reclaims_iff hash rl e.now e.key he hnew) (fun _ _ _ _ _ => trivial) l rl trivial hl,
    Run.along_of_inv (I := fun _ => True) (fun rl e _ he => ⟨storesFull hash rl e he, trivial⟩) l rl
      trivial hl⟩

end

/-- the shard of every key, when all of them have one hash -/
def oneShard : Fin kShardCount := shardFor (fun _ => 0) ""

/-- shards that sweep at the second new key -/
def nearSweep : RateLimiter := ⟨{}, fun _ => { opCounter := 998 }⟩

/-- the first call is refused, which leaves its bucket full; the second call sweeps it away -/
theorem idle_bucket_removed :
    ((Run.exec (step fun _ => 0) nearSweep [⟨0, "idle", 101⟩, ⟨301, "new", 1⟩]).shards
      oneShard).buckets.lookup "idle" = none := by
  have hkeys : ((step (fun _ => 0) nearSweep ⟨0, "idle", 101⟩).shards oneShard).buckets.keys =
      ["idle"] := by decide +kernel
  have hidle : ((step (fun _ => 0) nearSweep ⟨0, "idle", 101⟩).shards oneShard).buckets.lookup
      "idle" = some (fullBucket {} 0) := by decide +kernel
  refine (((due_removed_iff (fun _ => 0) nearSweep [⟨0, "idle", 101⟩, ⟨301, "new", 1⟩] ?_).1.2
    ⟨?_, ?_, trivial⟩).2.1 (by decide +kernel)).1 (by decide +kernel) "idle" (fullBucket {} 0) hidle
      ⟨by decide +kernel, by decide +kernel⟩
  · simp
  · exact fun _ hsweep => absurd hsweep (by decide +kernel)
  · intro _ _ k b hb _
    have hk : k ∈ ["idle"] := hkeys ▸ lookup_isSome.1 (Option.isSome_of_eq_some hb)
    obtain rfl := mem_singleton.1 hk
    obtain rfl : fullBucket {} 0 = b := Option.some.inj (hidle.symm.trans hb)
    exact le_refl _

/-! ## keys that are used once -/

section
variable {rl : RateLimiter} {names : List String} {key : String}

/-- the first shard has these keys, and one token was taken from the one that each had at time zero -/
structure Filled (rl : RateLimiter) (names : List String) : Prop where
  config : rl.globalConfig = ⟨1, 1⟩
  keys : (rl.shards oneShard).buckets.keys = names
  spent : ∀ k b, (rl.shards oneShard).buckets.lookup k = some b → b = ⟨0, 1, 1, 0⟩

lemma Filled.lookup_new (h : Filled rl names) (hkey : key ∉ names) :
    (rl.shards oneShard).buckets.lookup key = none := by
  rw [← h.keys] at hkey
  exact lookup_eq_none.2 hkey

lemma Filled.keys_allow (h : Filled rl names) (now : ℚ) (hkey : key ∉ names) :
    ((allow (fun _ => 0) now rl key 1).1.shards oneShard).buckets.keys = key :: names := by
  have hsame : sweep now (rl.shards oneShard).buckets = (rl.shards oneShard).buckets := by
    refine sweep_eq_self fun k b hb => ?_
    rw [h.spent k b hb]
    rfl
  have hprune : (maybePrune now (rl.shards oneShard)).buckets = (rl.shards oneShard).buckets := by
    unfold maybePrune
    split
    · rfl
    · exact hsame
  have hshard : shardFor (fun _ => 0) key = oneShard := rfl
  rw [shards_allow one_pos, hshard, Function.update_self]
  unfold serve getBucket
  rw [h.lookup_new hkey]
  simp only [insert_insert, keys_insert, hprune, h.keys, erase_of_not_mem hkey]

theorem Filled.allow (h : Filled rl names) (hkey : key ∉ names) :
    Filled (RateLimiter.allow (fun _ => 0) 0 rl key 1).1 (key :: names) where
  config := by
    unfold RateLimiter.allow
    split <;> exact h.config
  keys := h.keys_allow 0 hkey
  spent k b hb := by
    have hshard : shardFor (fun _ => 0) key = oneShard := rfl
    rw [shards_allow one_pos, hshard, Function.update_self] at hb
    by_cases hk : k = key
    · subst hk
      rw [lookup_serve_self, h.lookup_new hkey, Option.getD_none, refill_fullBucket, h.config] at hb
      obtain rfl := Option.some.inj hb
      decide +kernel
    · rw [lookup_serve_ne _ _ _ _ _ hk] at hb
      split at hb
      · exact h.spent k b (Option.filter_eq_some_iff.1 hb).1
      · exact h.spent k b hb

def fill (rl : RateLimiter) (names : List String) : RateLimiter :=
  Run.exec (fun rl key => (allow (fun _ => 0) 0 rl key 1).1) rl names

lemma Filled.fill (more : List String) : ∀ {rl : RateLimiter} {names : List String},
    Filled rl names → (more.reverse ++ names).Nodup →
      Filled (RateLimiter.fill rl more) (more.reverse ++ names) := by
  induction more with
  | nil => intro rl names h _; exact h
  | cons key more ih =>
    intro rl names h hnd
    rw [reverse_cons, append_assoc] at hnd ⊢
    refine ih (h.allow ?_) hnd
    have hsub := hnd.of_append_right
    exact (nodup_cons.1 hsub).1

end

def names : List String :=
  (List.range kMaxBucketsPerShard).map (fun i => String.ofList (List.replicate i 'a'))

/-- each key takes its only token; a thousand seconds later all are due, and the sweep for another
key removes none -/
theorem idle_keys_stay :
    ∃ rl, rl = fill (ofConfig ⟨1, 1⟩) names ∧ (rl.shards oneShard).buckets.lookup "b" = none ∧
      Sweeps (rl.shards oneShard) ∧ AllDue 1000 (rl.shards oneShard) ∧
      ((allow (fun _ => 0) 1000 rl "b" 1).1.shards oneShard).buckets.keys.length = 10001 := by
  have hnd : names.Nodup := by
    refine List.Nodup.map (fun i j hij => ?_) nodup_range
    simpa using congrArg (List.length ∘ String.toList) hij
  have hb : "b" ∉ names := by
    intro hmem
    obtain ⟨i, -, hi⟩ := mem_map.1 hmem
    have hall : 'b' ∈ List.replicate i 'a' := by
      have hlist := congrArg String.toList hi
      rw [String.toList_ofList] at hlist
      rw [hlist]
      decide
    exact absurd (eq_of_mem_replicate hall) (by decide)
  have hlen : names.length = kMaxBucketsPerShard := by
    rw [names, length_map, length_range]
  have hfilled : Filled (fill (ofConfig ⟨1, 1⟩) names) (names.reverse ++ []) :=
    Filled.fill names ⟨rfl, rfl, nofun⟩ (by simpa using hnd)
  rw [append_nil] at hfilled
  have hnew : "b" ∉ names.reverse := fun h => hb (mem_reverse.1 h)
  refine ⟨_, rfl, hfilled.lookup_new hnew, ?_, ?_, ?_⟩
  · rintro ⟨-, hfew⟩
    rw [hfilled.keys, length_reverse, hlen] at hfew
    exact lt_irrefl _ hfew
  · intro k b hk
    rw [hfilled.spent k b hk]
    exact ⟨by decide +kernel, by decide +kernel⟩
  · rw [hfilled.keys_allow 1000 hnew, length_cons, length_reverse, hlen]
    rfl

end AegisGate.RateLimiter
