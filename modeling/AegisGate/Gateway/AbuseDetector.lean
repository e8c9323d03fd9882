import AegisGate.Gateway.CircuitBreaker
import AegisGate.Server.TenantLimit

/-!
# The abuse detector

`src/gateway/abuse_detector.cpp` without the Redis backend.  Each key has a window of rejections, in a
shard with a bounded number of keys: a new key takes the place of the one whose last rejection is the
oldest.  Times are those of the steady clock, in nanoseconds, and an operation reads it once.

* `simhash64`, `hamming64`  what makes two contents similar;
* `ensureKeyCapacity`  room for a new key;
* `observe`, `recordRejection`  the two calls that write;
* `getAction`  what is done with a request of the key;
* `Spared`  a call that does not take the window of a key.

A key that is blocked sends no more rejections, so its window becomes the oldest, and its block goes
with it (`evicted_key_allowed`).  It lasts as long as the shard has an older key whenever it makes room
(`block_lasts`).
-/

namespace AegisGate

open List

/-! ## similar contents -/

def fnv1a64 (s : List UInt8) : UInt64 :=
  s.foldl (fun h c => (h ^^^ c.toUInt64) * 1099511628211) 14695981039346656037

def trigrams : List UInt8 → List (List UInt8)
  | a :: b :: c :: rest => [a, b, c] :: trigrams (b :: c :: rest)
  | _ => []

def bit (i : ℕ) : UInt64 := 1 <<< i.toUInt64

/-- over the trigrams, or the whole text when it is shorter -/
def simhash64 (text : List UInt8) : UInt64 :=
  let features := if text.length < 3 then [text] else trigrams text
  let acc (i : ℕ) : Int :=
    (features.map (fun f => if fnv1a64 f &&& bit i ≠ 0 then (1 : Int) else -1)).sum
  (range 64).foldl (fun out i => if 0 < acc i then out ||| bit i else out) 0

def hamming64 (a b : UInt64) : ℕ := (range 64).countP ((a ^^^ b) &&& bit · ≠ 0)

open TenantLimit (AbuseAction)

namespace AbuseDetector

def kShardCount : ℕ := 16

/-- durations are in seconds -/
structure Config where
  windowSeconds : Int := 300
  warnThreshold : Int := 5
  throttleThreshold : Int := 10
  blockThreshold : Int := 20
  blockDurationSeconds : Int := 1800
  maxKeysPerShard : ℕ := 1024
  similarityEnabled : Bool := true
  similarityHammingThreshold : Int := 3
  similarityMaxFingerprints : ℕ := 32
  similarityMaxContentBytes : ℕ := 8192

structure SlidingWindow where
  timestamps : List Int := []
  blockedUntil : Int := 0
  fingerprints : List UInt64 := []

abbrev Windows := AList (fun _ : String => SlidingWindow)

end AbuseDetector

/-- `hash` is `std::hash` on the keys -/
structure AbuseDetector where
  config : AbuseDetector.Config
  hash : String → ℕ
  shards : Fin AbuseDetector.kShardCount → AbuseDetector.Windows

namespace AbuseDetector

def create (config : Config) (hash : String → ℕ) : AbuseDetector := ⟨config, hash, fun _ => ∅⟩

section
variable (cfg : Config) (now : Int) (w : SlidingWindow)

def pruneExpired : SlidingWindow :=
  { w with timestamps := w.timestamps.dropWhile (· < now - nanoseconds cfg.windowSeconds) }

def countInWindow : Int :=
  w.timestamps.countP (now - nanoseconds cfg.windowSeconds ≤ ·)

def SlidingWindow.last : Int := w.timestamps.getLast?.getD 0

def older (best : String × Int) (e : (_ : String) × SlidingWindow) : String × Int :=
  if e.2.last < best.2 then (e.1, e.2.last) else best

/-- the loop for the key with the oldest window, from no key and `time_point::max` -/
def oldest (ws : Windows) : String × Int := ws.entries.foldl older ("", 9223372036854775807)

def ensureKeyCapacity (ws : Windows) (key : String) : Windows :=
  if (ws.lookup key).isSome ∨ ws.keys.length < cfg.maxKeysPerShard then ws
  else if (oldest ws).1 ≠ "" then ws.erase (oldest ws).1 else ws

def pushFingerprint (hash : UInt64) (w : SlidingWindow) : SlidingWindow :=
  let all := w.fingerprints ++ [hash]
  { w with fingerprints := all.drop (all.length - cfg.similarityMaxFingerprints) }

def actionFromCount (count : Int) (w : SlidingWindow) : AbuseAction :=
  if now < w.blockedUntil then .block
  else if cfg.blockThreshold ≤ count then .block
  else if cfg.throttleThreshold ≤ count then .throttle
  else if cfg.warnThreshold ≤ count then .warn
  else .allow

def reject : SlidingWindow :=
  let w := pruneExpired cfg now { w with timestamps := w.timestamps ++ [now] }
  if cfg.blockThreshold ≤ w.timestamps.length ∧ w.blockedUntil ≤ now then
    { w with blockedUntil := now + nanoseconds cfg.blockDurationSeconds }
  else w

/-- a content is a rejection too when it is close to one of the last ones -/
def fingerprint (hash : UInt64) (w : SlidingWindow) : SlidingWindow :=
  let hit := w.fingerprints.any (fun fp => (hamming64 hash fp : Int) ≤ cfg.similarityHammingThreshold)
  pushFingerprint cfg hash (if hit then reject cfg now w else w)

end

section
variable (d : AbuseDetector) (now : Int) (key : String)

def shardFor : Fin kShardCount := ⟨d.hash key % kShardCount, Nat.mod_lt _ (by decide)⟩

/-- the window of the key, which is made when it is not there, is changed in place -/
def withWindow (change : SlidingWindow → SlidingWindow) : AbuseDetector :=
  let i := d.shardFor key
  let ws := ensureKeyCapacity d.config (d.shards i) key
  { d with
    shards := Function.update d.shards i (ws.insert key (change ((ws.lookup key).getD {}))) }

def recordRejection : AbuseDetector := d.withWindow key (reject d.config now)

def getAction : AbuseAction :=
  match (d.shards (d.shardFor key)).lookup key with
  | none => .allow
  | some w => actionFromCount d.config now (countInWindow d.config now w) w

def observe (content : List UInt8) : AbuseAction × AbuseDetector :=
  let trimmed := content.take d.config.similarityMaxContentBytes
  let d := if d.config.similarityEnabled ∧ trimmed ≠ [] then
    d.withWindow key (fingerprint d.config now (simhash64 trimmed)) else d
  (d.getAction now key, d)

end

inductive Call
  | recordRejection (now : Int) (key : String)
  | observe (now : Int) (key : String) (content : List UInt8)

def Call.now : Call → Int
  | .recordRejection now _ => now
  | .observe now _ _ => now

def Call.key : Call → String
  | .recordRejection _ key => key
  | .observe _ key _ => key

def step (d : AbuseDetector) : Call → AbuseDetector
  | .recordRejection now key => d.recordRejection now key
  | .observe now key content => (d.observe now key content).2

/-! ## the window of a key -/

def windowOf (d : AbuseDetector) (key : String) : Option SlidingWindow :=
  (d.shards (d.shardFor key)).lookup key

/-- whenever the shard of `k` is full without a window for the call's key, it has one older than
that of `k` -/
def Spared (k : String) (d : AbuseDetector) (c : Call) : Prop :=
  d.shardFor c.key = d.shardFor k → d.windowOf c.key = none →
    d.config.maxKeysPerShard ≤ (d.shards (d.shardFor k)).keys.length →
    ∀ w, d.windowOf k = some w → ∃ k' w', (d.shards (d.shardFor k)).lookup k' = some w' ∧ w'.last < w.last

lemma foldl_older (l : List ((_ : String) × SlidingWindow)) : ∀ best : String × Int,
    (l.foldl older best).2 ≤ best.2 ∧ (∀ e ∈ l, (l.foldl older best).2 ≤ e.2.last) ∧
      (l.foldl older best = best ∨ ∃ e ∈ l, l.foldl older best = (e.1, e.2.last)) := by
  induction l with
  | nil => intro best; exact ⟨le_refl _, nofun, .inl rfl⟩
  | cons e l ih =>
    intro best
    obtain ⟨hle, hall, hfrom⟩ := ih (older best e)
    have hone : (older best e).2 ≤ best.2 ∧ (older best e).2 ≤ e.2.last ∧
        (older best e = best ∨ older best e = (e.1, e.2.last)) := by
      unfold older
      split
      · next hlt => exact ⟨hlt.le, le_refl _, .inr rfl⟩
      · next hlt => exact ⟨le_refl _, not_lt.1 hlt, .inl rfl⟩
    rw [foldl_cons]
    refine ⟨hle.trans hone.1, ?_, ?_⟩
    · rw [forall_mem_cons]
      exact ⟨hle.trans hone.2.1, hall⟩
    · rcases hfrom with heq | ⟨x, hx, heq⟩
      · rw [heq]
        exact hone.2.2.imp_right fun h => ⟨e, mem_cons_self, h⟩
      · exact .inr ⟨x, mem_cons_of_mem e hx, heq⟩

/-- the loop finds a least time, and a key of that time unless it finds none -/
lemma oldest_spec (ws : Windows) :
    (∀ k w, ws.lookup k = some w → (oldest ws).2 ≤ w.last) ∧
      ((oldest ws).1 = "" ∨ ∃ w, ws.lookup (oldest ws).1 = some w ∧ w.last = (oldest ws).2) := by
  obtain ⟨-, hall, hfrom⟩ := foldl_older ws.entries ("", 9223372036854775807)
  refine ⟨fun k w hw => hall ⟨k, w⟩ (AList.mem_lookup_iff.1 hw), ?_⟩
  unfold oldest
  rcases hfrom with heq | ⟨e, he, heq⟩
  · rw [heq]
    exact .inl rfl
  · rw [heq]
    exact .inr ⟨e.2, AList.mem_lookup_iff.2 he, rfl⟩

section
variable {d : AbuseDetector} {k : String} {change : SlidingWindow → SlidingWindow} {c : Call}
  {key : String} {limit : Int} {w : SlidingWindow}

lemma lookup_ensureKeyCapacity {cfg : Config} {ws : Windows} (hw : ws.lookup k = some w)
    (hsafe : ws.lookup key = none → cfg.maxKeysPerShard ≤ ws.keys.length →
      ∃ k' w', ws.lookup k' = some w' ∧ w'.last < w.last) :
    (ensureKeyCapacity cfg ws key).lookup k = some w := by
  unfold ensureKeyCapacity
  split
  · exact hw
  · next hfull =>
    obtain ⟨hnone, hlen⟩ := not_or.1 hfull
    obtain ⟨k', w', hk', hlt⟩ := hsafe (by simpa using hnone) (not_lt.1 hlen)
    obtain ⟨hleast, hkey⟩ := oldest_spec ws
    split
    · next hne =>
      obtain ⟨w0, hw0, htime⟩ := hkey.resolve_left hne
      rw [AList.lookup_erase_ne, hw]
      rintro rfl
      rw [hw] at hw0
      obtain rfl := Option.some.inj hw0
      have := hleast k' w' hk'
      omega
    · exact hw

lemma windowOf_withWindow (hw : d.windowOf k = some w)
    (hsafe : d.shardFor key = d.shardFor k → d.windowOf key = none →
      d.config.maxKeysPerShard ≤ (d.shards (d.shardFor k)).keys.length →
      ∃ k' w', (d.shards (d.shardFor k)).lookup k' = some w' ∧ w'.last < w.last) :
    (d.withWindow key change).windowOf k = some (if key = k then change w else w) := by
  show (Function.update d.shards (d.shardFor key) _ (d.shardFor k)).lookup k = _
  by_cases hi : d.shardFor k = d.shardFor key
  · have hkept : (ensureKeyCapacity d.config (d.shards (d.shardFor k)) key).lookup k = some w := by
      refine lookup_ensureKeyCapacity hw fun hnone => hsafe hi.symm ?_
      rw [windowOf, ← hi]
      exact hnone
    rw [hi, Function.update_self, ← hi]
    split
    · next hkey =>
      subst hkey
      rw [AList.lookup_insert, hkept]
      rfl
    · next hkey => rw [AList.lookup_insert_ne (Ne.symm hkey), hkept]
  · have hkey : key ≠ k := by
      rintro rfl
      exact hi rfl
    rw [Function.update_of_ne hi, if_neg hkey]
    exact hw

/-- a change that leaves a block in force at `now` as it is -/
def Keeps (now : Int) (change : SlidingWindow → SlidingWindow) : Prop :=
  ∀ w : SlidingWindow, now < w.blockedUntil → (change w).blockedUntil = w.blockedUntil

lemma keeps_reject (cfg : Config) (now : Int) : Keeps now (reject cfg now) := by
  intro w hw
  unfold reject
  rw [if_neg]
  · rfl
  · rintro ⟨-, hle⟩
    exact absurd hw (not_lt.2 hle)

lemma keeps_fingerprint (cfg : Config) (now : Int) (hash : UInt64) :
    Keeps now (fingerprint cfg now hash) := by
  intro w hw
  unfold fingerprint
  simp only
  split
  · exact keeps_reject cfg now w hw
  · rfl

def BlockedUntil (d : AbuseDetector) (k : String) (limit : Int) : Prop :=
  ∃ w, d.windowOf k = some w ∧ w.blockedUntil = limit

lemma BlockedUntil.withWindow (h : d.BlockedUntil k limit) (hnow : c.now < limit)
    (hc : Spared k d c) (hkeeps : Keeps c.now change) :
    (d.withWindow c.key change).BlockedUntil k limit := by
  obtain ⟨w, hw, rfl⟩ := h
  refine ⟨_, windowOf_withWindow hw fun hi hnone hfull => hc hi hnone hfull w hw, ?_⟩
  split
  · exact hkeeps w hnow
  · rfl

lemma BlockedUntil.step (h : d.BlockedUntil k limit) (hnow : c.now < limit) (hc : Spared k d c) :
    (d.step c).BlockedUntil k limit := by
  cases c with
  | recordRejection now key => exact h.withWindow hnow hc (keeps_reject d.config now)
  | observe now key content =>
    show (if _ then _ else _ : AbuseDetector).BlockedUntil k limit
    split
    · exact h.withWindow hnow hc (keeps_fingerprint d.config now _)
    · exact h

/-- A key blocked at time `t` stays so for the duration of the block, in every run whose calls spare
its window. -/
theorem block_lasts (d : AbuseDetector) (k : String) (t : Int)
    (hblocked : d.BlockedUntil k (t + nanoseconds d.config.blockDurationSeconds)) (l : List Call)
    (htimes : ∀ c ∈ l, c.now < t + nanoseconds d.config.blockDurationSeconds)
    (hl : Run.Along step (Spared k) d l) (u : Int)
    (hu : u < t + nanoseconds d.config.blockDurationSeconds) :
    (Run.exec step d l).getAction u k = .block := by
  generalize t + nanoseconds d.config.blockDurationSeconds = limit at hblocked htimes hu
  obtain ⟨w, hw, hlimit⟩ := Run.Along.inv (I := fun d => d.BlockedUntil k limit)
    (fun d c h hnow hc => h.step hnow hc) l d hblocked htimes hl l prefix_rfl
  have hw : ((Run.exec step d l).shards ((Run.exec step d l).shardFor k)).lookup k = some w := hw
  unfold getAction
  rw [hw]
  simp only
  unfold actionFromCount
  rw [if_pos (hlimit ▸ hu)]

end

def strictDetector (maxKeysPerShard : ℕ) : AbuseDetector :=
  (create { blockThreshold := 1, maxKeysPerShard } (fun _ => 0)).recordRejection 0 "a"

theorem blocked_beside_others :
    (Run.exec step (strictDetector 2) [.recordRejection 1 "b", .recordRejection 2 "a"]).getAction 3 "a" =
      .block := by
  refine block_lasts (strictDetector 2) "a" 0 ⟨_, rfl, rfl⟩ _ ?_ ?_ 3 (by decide)
  · decide
  · exact ⟨fun _ _ hfull => absurd hfull (by decide +kernel),
      fun _ hnone => absurd hnone (by decide +kernel), trivial⟩

/-- with room for one key, a rejection of another key lets the blocked one in again -/
theorem evicted_key_allowed :
    (strictDetector 1).BlockedUntil "a" (nanoseconds 1800) ∧
      (Run.exec step (strictDetector 1) [.recordRejection 1 "b"]).getAction 2 "a" = .allow := by
  refine ⟨⟨_, rfl, rfl⟩, by decide +kernel⟩

end AbuseDetector

end AegisGate
