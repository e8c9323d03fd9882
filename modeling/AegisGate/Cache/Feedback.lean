import AegisGate.Cache.Provenance

/-!
# Feedback and the age of an answer

`SemanticCache::recordFeedback`: an answer that did not satisfy is to expire early.  Its time of
creation is set back from the time of its last use, not from the time at which it was created, so an
answer that was used late lives on.

* `recordFeedback`  the entry nearest to a prompt is made older, when the satisfaction is low;
* `SetsBack`  that time lies before the creation of the entry;
* `timedStep`  puts, gets, feedback and sweeps, each with its readings of the clock.

`ttl_kept_iff`: a feedback never prolongs an entry exactly when it sets it back, and where every
feedback does, an answer is at most as old as the time to live.

Times are in nanoseconds.  Feedback searches the empty partition without a threshold; what it finds is
the parameter `nearest`.
-/

namespace AegisGate.Cache

open Run

def ticksPerSecond : ℕ := 1000000000

def halvedTtl (cfg : CacheConfig) : ℕ := cfg.ttl / ticksPerSecond / 2 * ticksPerSecond

/-- where `recordFeedback` moves the creation of an entry -/
def targetTime (cfg : CacheConfig) (e : CacheEntry) : Int :=
  e.lastAccessed - ((cfg.ttl : Int) - halvedTtl cfg)

inductive TimedCall where
  | put (r : PutRequest)
  | get (r : GetRequest)
  | recordFeedback (prompt : String) (satisfaction : ℚ)
  | evictExpired (now : Int)

section
variable (cfg : CacheConfig) {σ : Type} (V : VectorStore σ)
  (nearest : σ → Vec → List VectorSearchResult)

def ratedEntry (prompt : String) (w : World σ) : Option CacheEntry := do
  let top ← (nearest w.vectors (cfg.embed prompt)).head?
  w.cache.entries.find top.id

def recordFeedback (prompt : String) (satisfaction : ℚ) (w : World σ) : World σ :=
  if satisfaction < 1 / 2 then
    match ratedEntry cfg nearest prompt w with
    | none => w
    | some e =>
      { w with cache := { w.cache with
          entries := w.cache.entries.put { e with createdAt := targetTime cfg e } } }
  else w

def timedStep (w : World σ) : TimedCall → World σ
  | .put r => put cfg V r w
  | .get r => (get cfg V r w).2
  | .recordFeedback prompt satisfaction => recordFeedback cfg nearest prompt satisfaction w
  | .evictExpired now => evictExpired cfg V now w

/-- a low satisfaction does not move the creation of its entry forward -/
def SetsBack (w : World σ) : TimedCall → Prop
  | .recordFeedback prompt satisfaction =>
    satisfaction < 1 / 2 → ∀ e, ratedEntry cfg nearest prompt w = some e →
      targetTime cfg e ≤ e.createdAt
  | _ => True

def Prolongs (w w' : World σ) : Prop :=
  ∃ id e e', w.cache.entries.find id = some e ∧ w'.cache.entries.find id = some e' ∧
    e.createdAt < e'.createdAt

end

section
variable {cfg : CacheConfig} {σ : Type} {V : VectorStore σ}
  {nearest : σ → Vec → List VectorSearchResult} {prompt : String} {e : CacheEntry} {w : World σ}

lemma ratedEntry_find (h : ratedEntry cfg nearest prompt w = some e) :
    w.cache.entries.find e.id = some e := by
  obtain ⟨top, -, hf⟩ := Option.bind_eq_some_iff.1 h
  rw [Table.key_of_find hf]
  exact hf

/-- a feedback prolongs an entry exactly when it does not set it back -/
lemma prolongs_iff (prompt : String) (satisfaction : ℚ) (w : World σ) :
    ¬ Prolongs w (recordFeedback cfg nearest prompt satisfaction w) ↔
      SetsBack cfg nearest w (.recordFeedback prompt satisfaction) := by
  unfold recordFeedback SetsBack
  by_cases hlow : satisfaction < 1 / 2
  · rw [if_pos hlow]
    cases hrated : ratedEntry cfg nearest prompt w with
    | none =>
      refine ⟨fun _ _ e he => ?_, fun _ hp => ?_⟩
      · rw [hrated] at he
        cases he
      obtain ⟨id, e, e', he, he', hlt⟩ := hp
      rw [he] at he'
      cases he'
      exact absurd hlt (lt_irrefl _)
    | some e =>
      have hfind := ratedEntry_find hrated
      constructor
      · intro hnot _ e1 he1
        rw [hrated] at he1
        cases he1
        by_contra hlt
        exact hnot ⟨e.id, e, { e with createdAt := targetTime cfg e }, hfind,
          Table.find_put_self _ _, not_le.1 hlt⟩
      · rintro hback ⟨id, e1, e1', he1, he1', hlt⟩
        have hle := hback hlow e hrated
        rw [Table.find_put] at he1'
        split at he1'
        · next hid =>
          cases he1'
          rw [← hid, hfind] at he1
          cases he1
          exact absurd hlt (not_lt.2 hle)
        · rw [he1] at he1'
          cases he1'
          exact absurd hlt (lt_irrefl _)
  · rw [if_neg hlow]
    refine ⟨fun _ h => absurd h hlow, fun _ hp => ?_⟩
    obtain ⟨id, e, e', he, he', hlt⟩ := hp
    rw [he] at he'
    cases he'
    exact absurd hlt (lt_irrefl _)

/-- an entry of the cache was put under its id by one of the calls, and is as old at least -/
def Aged (cfg : CacheConfig) (V : VectorStore σ) (nearest : σ → Vec → List VectorSearchResult)
    (v : σ) (l : List TimedCall) (e : CacheEntry) : Prop :=
  ∃ l₁ p l₂, l = l₁ ++ .put p :: l₂ ∧
    e.id = allocatedId cfg (exec (timedStep cfg V nearest) ⟨{}, v⟩ l₁).cache p ∧
    e.response = p.response ∧ e.createdAt ≤ p.nowCommit

lemma Aged.snoc {v : σ} {l : List TimedCall} (h : Aged cfg V nearest v l e) (c : TimedCall) :
    Aged cfg V nearest v (l ++ [c]) e := by
  obtain ⟨l1, p, l2, rfl, hrest⟩ := h
  exact ⟨l1, p, l2 ++ [c], by simp, hrest⟩

theorem Each.recordFeedback {P : CacheEntry → Prop} (h : Each P w.cache) {satisfaction : ℚ}
    (hP : satisfaction < 1 / 2 → ∀ e, ratedEntry cfg nearest prompt w = some e → P e →
      P { e with createdAt := targetTime cfg e }) :
    Each P (recordFeedback cfg nearest prompt satisfaction w).cache := by
  unfold Cache.recordFeedback
  split
  · next hlow =>
    split
    · exact h
    · next e hrated =>
      exact h.insert (hP hlow e hrated (h.of_find (ratedEntry_find hrated))) rfl
  · exact h

lemma entries_aged (v : σ) (l : List TimedCall) :
    Along (timedStep cfg V nearest) (SetsBack cfg nearest) ⟨{}, v⟩ l →
      Each (Aged cfg V nearest v l) (exec (timedStep cfg V nearest) ⟨{}, v⟩ l).cache := by
  induction l using List.reverseRecOn with
  | nil => exact fun _ => each_empty
  | append_singleton l c ih =>
    intro h
    obtain ⟨hl, hc, -⟩ := (along_append l [c] _).1 h
    have hold : Each (Aged cfg V nearest v (l ++ [c]))
        (exec (timedStep cfg V nearest) ⟨{}, v⟩ l).cache :=
      fun e he => (ih hl e he).snoc c
    rw [exec_append]
    cases c with
    | put r => exact hold.put r ⟨l, r, [], rfl, rfl, rfl, le_refl _⟩
    | get r => exact hold.get (fun e now he => he) r
    | recordFeedback prompt satisfaction =>
      refine hold.recordFeedback fun hlow e hrated he => ?_
      obtain ⟨l1, p, l2, heq, hid, hresponse, hle⟩ := he
      exact ⟨l1, p, l2, heq, hid, hresponse, le_trans (hc hlow e hrated) hle⟩
    | evictExpired now => exact hold.evictExpiredLocked now

end

/-- A feedback prolongs no entry exactly when it sets its entry back. Where every feedback does,
answers come within the time to live of their put. -/
theorem ttl_kept_iff {σ : Type} (cfg : CacheConfig) (V : VectorStore σ)
    (nearest : σ → Vec → List VectorSearchResult) : (∀ (w : World σ) prompt satisfaction,
      ¬ Prolongs w (recordFeedback cfg nearest prompt satisfaction w) ↔
        SetsBack cfg nearest w (.recordFeedback prompt satisfaction)) ∧
      ∀ (v : σ) (l : List TimedCall),
        Along (timedStep cfg V nearest) (SetsBack cfg nearest) ⟨{}, v⟩ l →
        ∀ r hit, (get cfg V r (exec (timedStep cfg V nearest) ⟨{}, v⟩ l)).1 = some hit →
          ∃ l₁ p l₂ t, l = l₁ ++ .put p :: l₂ ∧
            (∃ e ∈ (exec (timedStep cfg V nearest) ⟨{}, v⟩ l).cache.entries.rows,
              e.id = allocatedId cfg (exec (timedStep cfg V nearest) ⟨{}, v⟩ l₁).cache p ∧
                e.response = p.response ∧ e.response = hit.response) ∧
            (t = r.now ∨ cfg.crossTenant ∧ t = r.nowShared) ∧ t ≤ p.nowCommit + cfg.ttl := by
  refine ⟨fun w prompt satisfaction => prolongs_iff prompt satisfaction w, fun v l hl r hit hhit => ?_⟩
  obtain ⟨e, he, hresponse, -, hage⟩ := get_answer hhit
  obtain ⟨l₁, p, l₂, heq, hid, hput, hle⟩ := entries_aged v l hl e he
  have htime : ∀ t, e.isExpired cfg t = false → t ≤ p.nowCommit + cfg.ttl := by
    intro t ht
    have ht : ¬ t - e.createdAt > cfg.ttl := of_decide_eq_false ht
    omega
  rcases hage with ⟨hnow, -⟩ | ⟨hon, hshared⟩
  · exact ⟨l₁, p, l₂, r.now, heq, ⟨e, he, hid, hput, hresponse⟩, .inl rfl, htime _ hnow⟩
  · exact ⟨l₁, p, l₂, r.nowShared, heq, ⟨e, he, hid, hput, hresponse⟩, .inr ⟨hon, rfl⟩,
      htime _ hshared⟩

def minuteCache : CacheConfig := { smallCache with ttl := 60 * ticksPerSecond }

def askAt (second : Int) : GetRequest := ⟨"q", "m", "", second * ticksPerSecond, second * ticksPerSecond⟩

def putAtZero : PutRequest := ⟨"q", "a", "m", "", 0, 0⟩

/-- used at second 50 and then found wanting, an answer of second 0 is given at second 75 -/
theorem late_use_outlives_ttl :
    (get minuteCache oneFound (askAt 75)
      (exec (timedStep minuteCache oneFound (fun _ _ => [⟨"ns_0_0", 0⟩])) ⟨{}, ()⟩
        [.put putAtZero, .get (askAt 50), .recordFeedback "q" 0])).1 = some ⟨"a", "q", 0⟩ ∧
      putAtZero.nowCommit + minuteCache.ttl < (askAt 75).now ∧
      Prolongs (exec (timedStep minuteCache oneFound (fun _ _ => [⟨"ns_0_0", 0⟩])) ⟨{}, ()⟩
          [.put putAtZero, .get (askAt 50)])
        (exec (timedStep minuteCache oneFound (fun _ _ => [⟨"ns_0_0", 0⟩])) ⟨{}, ()⟩
          [.put putAtZero, .get (askAt 50), .recordFeedback "q" 0]) := by
  refine ⟨by decide +kernel, by decide, "ns_0_0", ?_⟩
  exact ⟨{ putAtZero.entry "ns_0_0" with lastAccessed := 50 * ticksPerSecond },
    { putAtZero.entry "ns_0_0" with
      createdAt := 20 * ticksPerSecond, lastAccessed := 50 * ticksPerSecond },
    by decide, by decide +kernel, by decide⟩

end AegisGate.Cache
