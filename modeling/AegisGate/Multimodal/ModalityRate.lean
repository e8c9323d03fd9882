import Mathlib.Data.Finset.Insert
import AegisGate.Cluster.RateScript
import AegisGate.Gateway.BucketSweep
import AegisGate.Lib.Separator

/-!
# Quotas of a modality

`src/multimodal/modality_rate_limiter.cpp`: the bucket of an identity in a modality stands in a
`RateLimiter` under a key of its own.  The first call on the key gives it the quota of the modality,
and `seededKeys` says that this was done.  A limiter with a `RedisStateStore` asks that store instead.

* `backingAllow`  `RateLimiter::allow`, in memory or by the script of the store;
* `allow`  seed the bucket if it was not, then ask the limiter;
* `setQuota`  a new quota of one modality, after which every key is seeded again;
* `bucketOf`  the bucket of a key;
* `Undisturbed`  a step that leaves the bucket of an identity to the calls for it.

A seeded bucket is filled up when a quota of any modality is set, the store never sees the quota
(`other_quota_refills`), and a bucket that a sweep has taken comes back with the global configuration.
In memory, and without such steps, the quota holds (`modality_quota_holds`).
-/

namespace AegisGate

open Function Window

inductive Modality
  | embedding | imageGen | audioTranscribe | audioSpeech | moderation | unknown
  deriving DecidableEq

def modalityToString : Modality → String
  | .embedding => "embedding"
  | .imageGen => "image_gen"
  | .audioTranscribe => "audio_transcribe"
  | .audioSpeech => "audio_speech"
  | .moderation => "moderation"
  | .unknown => "unknown"

/-- the buckets of a `RedisStateStore`, which do not expire here, and whether it can run a script -/
structure RateStore where
  buckets : String → Option Cluster.RateBucket := fun _ => none
  available : Bool := true

structure ModalityRateLimiter where
  backing : RateLimiter
  /-- `redis_store_` of the backing limiter -/
  redisStore : Option RateStore := none
  quotas : Modality → Option RateLimiter.Config := fun _ => none
  seededKeys : Finset String := ∅

namespace ModalityRateLimiter

def makeKey (m : Modality) (identity : String) : String :=
  "modality:" ++ modalityToString m ++ ":" ++ identity

def setQuota (m : Modality) (c : RateLimiter.Config) (ml : ModalityRateLimiter) :
    ModalityRateLimiter :=
  { ml with quotas := update ml.quotas m (some c), seededKeys := ∅ }

def clearQuota (m : Modality) (ml : ModalityRateLimiter) : ModalityRateLimiter :=
  { ml with quotas := update ml.quotas m none }

section
variable (hash : String → Nat) (now : ℚ) (ml : ModalityRateLimiter) (m : Modality) (identity : String)

/-- the first half of `allow`, under the lock -/
def seed : ModalityRateLimiter :=
  match ml.quotas m with
  | some c =>
    if makeKey m identity ∈ ml.seededKeys then ml
    else { ml with
      seededKeys := insert (makeKey m identity) ml.seededKeys
      backing := ml.backing.setKeyConfig hash now (makeKey m identity) c }
  | none => ml

/-- the store goes by the global configuration, and what it cannot run is allowed -/
def backingAllow (key : String) (cost : ℚ) : ModalityRateLimiter × Bool :=
  match ml.redisStore with
  | some store =>
    if cost ≤ 0 ∨ store.available = false then (ml, true)
    else
      let c := ml.backing.globalConfig
      let res := Cluster.rateLimitLua c.maxTokens c.refillRate cost (now * 1000).floor (store.buckets key)
      ({ ml with redisStore := some { store with buckets := update store.buckets key (some res.2) } },
        res.1)
  | none =>
    let res := ml.backing.allow hash now key cost
    ({ ml with backing := res.1 }, res.2)

def allow (cost : ℚ) : ModalityRateLimiter × Bool :=
  backingAllow hash now (seed hash now ml m identity) (makeKey m identity) cost

end

inductive Call
  | allow (now : ℚ) (m : Modality) (identity : String) (cost : ℚ)
  | setQuota (m : Modality) (c : RateLimiter.Config)
  | clearQuota (m : Modality)

def Call.time : Call → ℚ
  | .allow now _ _ _ => now
  | _ => 0

def Call.cost : Call → ℚ
  | .allow _ _ _ cost => cost
  | _ => 0

def step (hash : String → Nat) (ml : ModalityRateLimiter) : Call → ModalityRateLimiter
  | .allow now m identity cost => (ml.allow hash now m identity cost).1
  | .setQuota m c => ml.setQuota m c
  | .clearQuota m => ml.clearQuota m

/-- a call for the identity in the modality, and it is admitted -/
def grants (hash : String → Nat) (m : Modality) (identity : String) (ml : ModalityRateLimiter) :
    Call → Bool
  | .allow now m' identity' cost =>
    decide (m' = m ∧ identity' = identity) && (ml.allow hash now m' identity' cost).2
  | _ => false

lemma colon_notMem (m : Modality) : ':' ∉ (modalityToString m).toList := by cases m <;> decide

lemma makeKey_inj {m m' : Modality} {identity identity' : String}
    (h : makeKey m identity = makeKey m' identity') : m = m' ∧ identity = identity' := by
  have hlist := congrArg String.toList h
  simp only [makeKey, String.toList_append, List.append_assoc, List.append_cancel_left_eq] at hlist
  obtain ⟨hname, hrest⟩ := Separator.split_first (colon_notMem m) (colon_notMem m') hlist
  refine ⟨?_, String.toList_inj.1 hrest⟩
  have hsame : modalityToString m = modalityToString m' := String.toList_inj.1 hname
  revert hsame
  cases m <;> cases m' <;> decide

end ModalityRateLimiter

/-! ## the bucket of a key -/

namespace RateLimiter

def bucketOf (hash : String → Nat) (rl : RateLimiter) (key : String) : Option TokenBucket :=
  (rl.shards (shardFor hash key)).buckets.lookup key

section
variable {hash : String → Nat} {now cost : ℚ} {rl : RateLimiter} {key k : String}

lemma bucketOf_setKeyConfig (c : Config) :
    (rl.setKeyConfig hash now k c).bucketOf hash key =
      if key = k then some (fullBucket c now) else rl.bucketOf hash key := by
  unfold bucketOf setKeyConfig
  by_cases hi : shardFor hash key = shardFor hash k
  · simp only [hi, update_self]
    split
    · next hk => rw [hk, AList.lookup_insert]
    · next hk => rw [AList.lookup_insert_ne hk]
  · have hk : key ≠ k := fun hk => hi (by rw [hk])
    simp only [update_of_ne hi, if_neg hk]

lemma bucketOf_allow_self (h : 0 < cost) : (rl.allow hash now key cost).1.bucketOf hash key =
    some (spend cost (refill now
      ((rl.bucketOf hash key).getD (fullBucket rl.globalConfig now)))) := by
  unfold bucketOf
  rw [shards_allow h, update_self, lookup_serve_self]

lemma answer_allow (h : 0 < cost) : (rl.allow hash now key cost).2 =
    decide (cost ≤ (refill now
      ((rl.bucketOf hash key).getD (fullBucket rl.globalConfig now))).tokens) := by
  unfold allow bucketOf
  rw [if_neg (not_le.2 h), ← getBucket_snd]

lemma allow_of_nonpos (h : cost ≤ 0) : rl.allow hash now key cost = (rl, true) := by
  unfold allow
  rw [if_pos h]

/-- a call on `k` sweeps the shard of `key` -/
def SweptBy (hash : String → Nat) (rl : RateLimiter) (key k : String) : Prop :=
  shardFor hash k = shardFor hash key ∧ rl.bucketOf hash k = none ∧ Sweeps (rl.shards (shardFor hash k))

instance : Decidable (SweptBy hash rl key k) := inferInstanceAs (Decidable (_ ∧ _ ∧ _))

lemma bucketOf_allow_ne (hk : key ≠ k)
    (hsafe : SweptBy hash rl key k → (rl.bucketOf hash key).all (!prunable now ·)) :
    (rl.allow hash now k cost).1.bucketOf hash key = rl.bucketOf hash key := by
  by_cases h : 0 < cost
  · unfold bucketOf
    rw [shards_allow h]
    by_cases hi : shardFor hash key = shardFor hash k
    · rw [hi, update_self, lookup_serve_ne _ _ _ _ _ hk]
      split
      · next hsweep =>
        have hkeep := hsafe ⟨hi.symm, hsweep.1, hsweep.2⟩
        rw [bucketOf, hi] at hkeep
        cases hb : (rl.shards (shardFor hash k)).buckets.lookup key with
        | none => rfl
        | some b => simp_all [Option.filter]
      · rfl
    · rw [update_of_ne hi]
  · rw [allow_of_nonpos (not_lt.1 h)]

end

end RateLimiter

/-! ## one identity in one modality -/

namespace ModalityRateLimiter

open RateLimiter (bucketOf SweptBy prunable fullBucket refill spend)

section
variable (hash : String → Nat) (m : Modality) (identity : String)

/-- no quota of another modality is set while the bucket is seeded, and no sweep takes the bucket -/
def Undisturbed (ml : ModalityRateLimiter) : Call → Prop
  | .allow now m' identity' _ =>
    SweptBy hash ml.backing (makeKey m identity) (makeKey m' identity') →
      (ml.backing.bucketOf hash (makeKey m identity)).all (!prunable now ·)
  | .setQuota m' _ => m' ≠ m ∧ makeKey m identity ∉ ml.seededKeys
  | .clearQuota m' => m' ≠ m

instance (ml : ModalityRateLimiter) : (e : Call) → Decidable (Undisturbed hash m identity ml e)
  | .allow _ _ _ _ => inferInstanceAs (Decidable (_ → _))
  | .setQuota _ _ => inferInstanceAs (Decidable (_ ∧ _))
  | .clearQuota _ => inferInstanceAs (Decidable (¬ _))

variable (c : RateLimiter.Config)

/-- in memory, the modality has the quota, and so has the bucket, once it is seeded -/
structure Quoted (ml : ModalityRateLimiter) : Prop where
  memory : ml.redisStore = none
  quota : ml.quotas m = some c
  bucket : makeKey m identity ∈ ml.seededKeys →
    ∃ t u, ml.backing.bucketOf hash (makeKey m identity) = some ⟨t, c.maxTokens, c.refillRate, u⟩

/-- the bucket is seeded, and its tokens less the refill since time zero are at most `x` -/
def Under (ml : ModalityRateLimiter) (x : ℚ) : Prop :=
  makeKey m identity ∈ ml.seededKeys ∧ ∀ b, ml.backing.bucketOf hash (makeKey m identity) = some b →
    b.tokens - c.refillRate * b.lastRefill ≤ x

end

section
variable {hash : String → Nat} {m : Modality} {identity : String} {c : RateLimiter.Config}
  {ml : ModalityRateLimiter} {now cost : ℚ} {key : String} {e : Call}

lemma seed_other (hkey : key ≠ makeKey m identity) :
    (key ∈ (ml.seed hash now m identity).seededKeys ↔ key ∈ ml.seededKeys) ∧
      (ml.seed hash now m identity).backing.bucketOf hash key = ml.backing.bucketOf hash key := by
  unfold seed
  split
  · split
    · exact ⟨Iff.rfl, rfl⟩
    · refine ⟨?_, ?_⟩
      · rw [Finset.mem_insert]
        exact or_iff_right hkey
      · rw [RateLimiter.bucketOf_setKeyConfig, if_neg hkey]
  · exact ⟨Iff.rfl, rfl⟩

lemma seed_frame : (ml.seed hash now m identity).quotas = ml.quotas ∧
    (ml.seed hash now m identity).redisStore = ml.redisStore := by
  unfold seed
  split
  · split <;> exact ⟨rfl, rfl⟩
  · exact ⟨rfl, rfl⟩

lemma allow_memory (hmem : ml.redisStore = none) : ml.allow hash now m identity cost =
    ({ ml.seed hash now m identity with
        backing := ((ml.seed hash now m identity).backing.allow hash now (makeKey m identity) cost).1 },
      ((ml.seed hash now m identity).backing.allow hash now (makeKey m identity) cost).2) := by
  have hseed : (ml.seed hash now m identity).redisStore = none := seed_frame.2.trans hmem
  unfold allow backingAllow
  split
  · next hstore =>
    rw [hseed] at hstore
    cases hstore
  · rfl

lemma sweptBy_seed
    (h : SweptBy hash (ml.seed hash now m identity).backing key (makeKey m identity)) :
    SweptBy hash ml.backing key (makeKey m identity) := by
  unfold seed at h
  split at h
  · split at h
    · exact h
    · obtain ⟨-, hnone, -⟩ := h
      rw [RateLimiter.bucketOf_setKeyConfig, if_pos rfl] at hnone
      cases hnone
  · exact h

lemma allow_other (hmem : ml.redisStore = none) (hkey : key ≠ makeKey m identity)
    (h : SweptBy hash ml.backing key (makeKey m identity) →
      (ml.backing.bucketOf hash key).all (!prunable now ·)) :
    (key ∈ (ml.allow hash now m identity cost).1.seededKeys ↔ key ∈ ml.seededKeys) ∧
      (ml.allow hash now m identity cost).1.backing.bucketOf hash key =
        ml.backing.bucketOf hash key := by
  rw [allow_memory hmem]
  obtain ⟨hseeded, hbucket⟩ := @seed_other hash m identity ml now key hkey
  refine ⟨hseeded, (RateLimiter.bucketOf_allow_ne hkey fun hswept => ?_).trans hbucket⟩
  rw [hbucket]
  exact h (sweptBy_seed hswept)

lemma Quoted.seed (h : Quoted hash m identity c ml) (now : ℚ) :
    Quoted hash m identity c (ml.seed hash now m identity) ∧
      makeKey m identity ∈ (ml.seed hash now m identity).seededKeys ∧
      ∀ x, Under hash m identity c ml x → Under hash m identity c (ml.seed hash now m identity) x := by
  unfold ModalityRateLimiter.seed
  rw [h.quota]
  simp only
  split
  · next hin => exact ⟨h, hin, fun _ hx => hx⟩
  · next hin =>
    refine ⟨⟨h.memory, h.quota, fun _ => ⟨c.maxTokens, now, ?_⟩⟩, Finset.mem_insert_self _ _,
      fun x hx => absurd hx.1 hin⟩
    rw [RateLimiter.bucketOf_setKeyConfig, if_pos rfl]
    rfl

theorem Quoted.allow (h : Quoted hash m identity c ml) (now : ℚ) (hcost : 0 < cost) :
    ∃ t, t ≤ c.maxTokens ∧ (∀ x, Under hash m identity c ml x → t - c.refillRate * now ≤ x) ∧
      (ml.allow hash now m identity cost).2 = decide (cost ≤ t) ∧
      makeKey m identity ∈ (ml.allow hash now m identity cost).1.seededKeys ∧
      (ml.allow hash now m identity cost).1.backing.bucketOf hash (makeKey m identity) =
        some (spend cost ⟨t, c.maxTokens, c.refillRate, now⟩) := by
  rw [allow_memory h.memory]
  obtain ⟨hq, hseeded, hline⟩ := Quoted.seed h now
  obtain ⟨t, u, hb⟩ := hq.bucket hseeded
  refine ⟨min c.maxTokens (t + (now - u) * c.refillRate), min_le_left _ _, fun x hx => ?_, ?_,
    hseeded, ?_⟩
  · have hlevel := (hline x hx).2 _ hb
    have hle := min_le_right c.maxTokens (t + (now - u) * c.refillRate)
    linarith
  · show (RateLimiter.allow hash now _ (makeKey m identity) cost).2 = _
    rw [RateLimiter.answer_allow hcost, hb]
    rfl
  · show (RateLimiter.allow hash now _ (makeKey m identity) cost).1.bucketOf hash _ = _
    rw [RateLimiter.bucketOf_allow_self hcost, hb]
    rfl

lemma allow_free (hmem : ml.redisStore = none) (h : cost ≤ 0) :
    (ml.allow hash now m identity cost).1 = ml.seed hash now m identity := by
  rw [allow_memory hmem, RateLimiter.allow_of_nonpos h]

lemma Quoted.step (h : Quoted hash m identity c ml) (he : Undisturbed hash m identity ml e) :
    Quoted hash m identity c (ml.step hash e) := by
  cases e with
  | setQuota m' c' =>
    exact ⟨h.memory, (update_of_ne he.1.symm _ _).trans h.quota, nofun⟩
  | clearQuota m' => exact ⟨h.memory, (update_of_ne (Ne.symm he) _ _).trans h.quota, h.bucket⟩
  | allow now m' identity' cost =>
    have hframe := @seed_frame hash m' identity' ml now
    refine ⟨?_, ?_, fun hin => ?_⟩
    · rw [ModalityRateLimiter.step, allow_memory h.memory]
      exact hframe.2.trans h.memory
    · rw [ModalityRateLimiter.step, allow_memory h.memory]
      exact (congrFun hframe.1 m).trans h.quota
    by_cases hkey : makeKey m identity = makeKey m' identity'
    · obtain ⟨rfl, rfl⟩ := makeKey_inj hkey
      by_cases hcost : 0 < cost
      · obtain ⟨t, -, -, -, -, hb⟩ := h.allow now hcost
        refine ⟨(spend cost ⟨t, c.maxTokens, c.refillRate, now⟩).tokens, now, hb.trans ?_⟩
        unfold spend
        split <;> rfl
      · rw [ModalityRateLimiter.step, allow_free h.memory (not_lt.1 hcost)] at hin ⊢
        exact (h.seed now).1.bucket hin
    · obtain ⟨hseeded, hbucket⟩ := allow_other h.memory hkey he
      exact hbucket ▸ h.bucket (hseeded.1 hin)

lemma Quoted.draw (h : Quoted hash m identity c ml) (he : Undisturbed hash m identity ml e) :
    (grants hash m identity ml e → e.cost ≤ 0) ∧
        (∀ x, Under hash m identity c ml x → Under hash m identity c (ml.step hash e) x) ∨
      ∃ t, t ≤ c.maxTokens ∧ 0 ≤ e.cost ∧ (grants hash m identity ml e ↔ e.cost ≤ t) ∧
        (∀ x, Under hash m identity c ml x → t - c.refillRate * e.time ≤ x) ∧
        ∀ y, Under hash m identity c (ml.step hash e) y ↔
          (if grants hash m identity ml e then t - e.cost else t) - c.refillRate * e.time ≤ y := by
  cases e with
  | setQuota m' c' => exact .inl ⟨nofun, fun x hx => absurd hx.1 he.2⟩
  | clearQuota m' => exact .inl ⟨nofun, fun x hx => hx⟩
  | allow now m' identity' cost =>
    by_cases hkey : makeKey m identity = makeKey m' identity'
    · obtain ⟨rfl, rfl⟩ := makeKey_inj hkey
      by_cases hcost : 0 < cost
      · obtain ⟨t, hmax, hline, hans, hin, hb⟩ := h.allow now hcost
        have hgrants : grants hash m identity ml (.allow now m identity cost) = decide (cost ≤ t) := by
          simp [grants, hans]
        refine .inr ⟨t, hmax, hcost.le, ?_, hline, fun y => ?_⟩
        · rw [hgrants, decide_eq_true_iff]
          rfl
        · show _ ∧ (∀ b, (ml.allow hash now m identity cost).1.backing.bucketOf hash _ = some b → _) ↔ _
          rw [hb, hgrants, spend]
          refine (and_iff_right hin).trans ?_
          by_cases hle : cost ≤ t <;> simp [hle, Call.cost, Call.time]
      · refine .inl ⟨fun _ => not_lt.1 hcost, fun x hx => ?_⟩
        rw [ModalityRateLimiter.step, allow_free h.memory (not_lt.1 hcost)]
        exact (h.seed now).2.2 x hx
    · obtain ⟨hseeded, hbucket⟩ := allow_other h.memory hkey he
      refine .inl ⟨fun hgrants => ?_, fun x hx => ⟨hseeded.2 hx.1, fun b hb => ?_⟩⟩
      · simp only [grants, Bool.and_eq_true, decide_eq_true_eq] at hgrants
        exact absurd (by rw [hgrants.1.1, hgrants.1.2]) hkey
      · exact hx.2 b (hbucket.symm.trans hb)

/-- Without a Redis store, in every run that leaves the bucket undisturbed after the quota was set, the
cost admitted for the identity stays within the quota. -/
theorem modality_quota_holds (hash : String → Nat) (ml : ModalityRateLimiter)
    (hmem : ml.redisStore = none) (m : Modality) (identity : String) (c : RateLimiter.Config)
    (hmax : 0 ≤ c.maxTokens) (hrate : 0 ≤ c.refillRate) (l : List Call)
    (hl : Run.Along (step hash) (Undisturbed hash m identity) (ml.setQuota m c) l) :
    WithinRate Call.time Call.cost c.maxTokens c.refillRate
      (admitted (step hash) (grants hash m identity) (ml.setQuota m c) l) := by
  have hmetered : Metered (step hash) (grants hash m identity) Call.time Call.cost c.maxTokens
      c.refillRate (Quoted hash m identity c) (Undisturbed hash m identity)
      (Under hash m identity c) := ⟨fun _ _ hq he => hq.step he, fun _ _ hq he => hq.draw he⟩
  exact hmetered.withinRate hrate hmax l _ ⟨hmem, update_self _ _ _, nofun⟩ hl

end

def onePicture : Call := .allow 0 .imageGen "tenant" 1

/-- the calls for a picture that are admitted under a quota of one, which has just been set -/
def pictures (redisStore : Option RateStore) (l : List Call) : List Call :=
  admitted (step (fun _ => 0)) (grants (fun _ => 0) .imageGen "tenant")
    (setQuota .imageGen ⟨1, 0⟩ { backing := .ofConfig {}, redisStore }) l

/-- the call for an embedding goes by the global configuration -/
theorem picture_within_quota : WithinRate Call.time Call.cost 1 0
    (pictures none [onePicture, .allow 0 .embedding "tenant" 1, onePicture]) :=
  modality_quota_holds (fun _ => 0) _ rfl .imageGen "tenant" ⟨1, 0⟩ (by decide +kernel)
    (by decide +kernel) _ (by decide +kernel)

/-- both calls for a picture are admitted at one instant: when the embeddings quota is set between
them, and when a Redis store is asked -/
theorem other_quota_refills :
    ¬ WithinRate Call.time Call.cost 1 0
        (pictures none [onePicture, .setQuota .embedding {}, onePicture]) ∧
      ¬ WithinRate Call.time Call.cost 1 0 (pictures (some {}) [onePicture, onePicture]) := by
  refine ⟨fun h => ?_, fun h => ?_⟩ <;>
  · have h0 := h 0 0 (le_refl 0)
    revert h0
    decide +kernel

end ModalityRateLimiter

end AegisGate
