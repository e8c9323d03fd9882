import AegisGate.Cache.Representation

/-!
# Where the entries of the cache come from

The calls of the cache take entries out, put new ones in and note when one was used last.  `Each P s`
says that every entry satisfies `P`; a call keeps it when the entry that it puts satisfies `P`
(`Each.put`, `Each.get`).

What `get` answers is in the entries: `get_answer` says which tests the entry has passed.
-/

namespace AegisGate.Cache

def Each (P : CacheEntry → Prop) (s : CacheState) : Prop := ∀ e ∈ s.entries.rows, P e

section
variable {P : CacheEntry → Prop} {s : CacheState} {cfg : CacheConfig} {r : GetRequest}
  {t : CacheState} {hit : CacheHit} {e : CacheEntry} {id : String}

lemma each_empty : Each P {} := nofun

section
variable (h : Each P s)
include h

lemma Each.of_find (hf : s.entries.find id = some e) :
    P e := h e (Table.find_eq_some_iff.1 hf).1

lemma Each.erase (ht : t.entries = s.entries.erase id) : Each P t := by
  intro e he
  rw [ht] at he
  exact h e (List.mem_filter.1 he).1

lemma Each.insert (he : P e) (ht : t.entries = s.entries.put e) : Each P t := by
  intro e' he'
  rw [ht] at he'
  rcases List.mem_cons.1 he' with rfl | he'
  · exact he
  · exact h e' (List.mem_filter.1 he').1

lemma Each.congr (ht : t.entries = s.entries) : Each P t := by
  intro e he
  rw [ht] at he
  exact h e he

lemma Each.drop (id : String) : Each P (s.drop id) := h.erase (entries_drop s id)

lemma Each.evictExpiredLocked (now : Int) : Each P (evictExpiredLocked cfg now s).2 :=
  evictExpiredLocked_keeps (fun _ id hs => hs.drop id) cfg now h

lemma Each.evictLRU : Each P (evictLRU s).2 := by
  unfold Cache.evictLRU
  split
  · exact h
  · exact h.erase rfl

lemma Each.allocate (model : String) (now : Int) : Each P (allocate cfg model now s).2 := by
  have hcounted : Each P { s with putCounter := s.putCounter + 1 } := h.congr rfl
  have hswept : Each P (sweep cfg now s).2 := by
    unfold sweep
    split
    · exact hcounted.evictExpiredLocked now
    · exact hcounted
  have hmade : Each P (makeRoom cfg (sweep cfg now s).2).2 := by
    unfold makeRoom
    split
    · exact hswept.evictLRU
    · exact hswept
  exact hmade.congr rfl

end

/-- the entry that a search has found passes the tests of `lookup` -/
def Passes (cfg : CacheConfig) (r : GetRequest) (e : CacheEntry) : Prop :=
  e.isExpired cfg r.now = false ∧ ¬ (r.model ≠ "" ∧ e.model ≠ "" ∧ e.model ≠ r.model) ∧
    e.partitionKey = r.partitionKey

lemma lookup_cases (cfg : CacheConfig) (r : GetRequest) (top : VectorSearchResult) (s : CacheState) :
    (∃ e, s.entries.find top.id = some e ∧ Passes cfg r e ∧
      lookup cfg r top s = ((false, some ⟨e.response, e.prompt, top.score⟩), s.touch e r.now)) ∨
    ((lookup cfg r top s).1.2 = none ∧
      ((lookup cfg r top s).2 = s ∨ (lookup cfg r top s).2 = s.drop top.id) ∧
      ∀ e, s.entries.find top.id = some e → ¬ Passes cfg r e) := by
  unfold lookup Passes
  cases hf : s.entries.find top.id with
  | none => exact .inr ⟨rfl, .inl rfl, nofun⟩
  | some e =>
    simp only
    by_cases hexpired : e.isExpired cfg r.now
    · rw [if_pos hexpired]
      refine .inr ⟨rfl, .inr rfl, fun e' he' hp => ?_⟩
      cases he'
      rw [hexpired] at hp
      cases hp.1
    · rw [if_neg hexpired]
      by_cases hmodel : r.model ≠ "" ∧ e.model ≠ "" ∧ e.model ≠ r.model
      · rw [if_pos hmodel]
        refine .inr ⟨rfl, .inl rfl, fun e' he' hp => ?_⟩
        cases he'
        exact hp.2.1 hmodel
      · rw [if_neg hmodel]
        by_cases hkey : e.partitionKey ≠ r.partitionKey
        · rw [if_pos hkey]
          refine .inr ⟨rfl, .inl rfl, fun e' he' hp => ?_⟩
          cases he'
          exact hkey hp.2.2
        · rw [if_neg hkey]
          exact .inl ⟨e, rfl, ⟨Bool.eq_false_iff.2 hexpired, hmodel, not_not.1 hkey⟩, rfl⟩

lemma Each.lookup (h : Each P s) (hP : ∀ e now, P e → P { e with lastAccessed := now })
    (r : GetRequest) (top : VectorSearchResult) : Each P (lookup cfg r top s).2 := by
  rcases lookup_cases cfg r top s with ⟨e, hf, -, heq⟩ | ⟨-, heq | heq, -⟩
  · rw [heq]
    refine h.insert (hP e r.now (h.of_find hf)) ?_
    unfold CacheState.touch
    split <;> rfl
  · rw [heq]
    exact h
  · rw [heq]
    exact h.drop top.id

variable {σ : Type} {V : VectorStore σ} {w : World σ}

def allocatedId (cfg : CacheConfig) (s : CacheState) (r : PutRequest) : String :=
  (allocate cfg r.model r.now s).1.1

theorem Each.put (h : Each P w.cache) (r : PutRequest) (hr : P (r.entry (allocatedId cfg w.cache r))) :
    Each P (put cfg V r w).cache := by
  have halloc : Each P (Cache.allocate cfg r.model r.now w.cache).2 := h.allocate r.model r.now
  unfold Cache.put
  simp only
  split
  · exact halloc.insert hr rfl
  · exact halloc

theorem Each.get (h : Each P w.cache) (hP : ∀ e now, P e → P { e with lastAccessed := now })
    (r : GetRequest) : Each P (get cfg V r w).2.cache := by
  unfold Cache.get
  split
  · exact h
  · exact h.lookup hP r _

lemma getCrossTenant_eq_some_iff :
    getCrossTenant cfg V r w = some hit ↔ ∃ (top : VectorSearchResult) (e : CacheEntry),
      (V.searchAllPartitions w.vectors (cfg.embed r.prompt)).head? = some top ∧
        w.cache.entries.find top.id = some e ∧ e.isExpired cfg r.nowShared = false ∧
        ¬ (r.model ≠ "" ∧ e.model ≠ "" ∧ e.model ≠ r.model) ∧
        hit = ⟨e.response, e.prompt, top.score⟩ := by
  constructor
  · intro hcross
    obtain ⟨top, htop, hcross⟩ := Option.bind_eq_some_iff.1 hcross
    obtain ⟨e, hf, hcross⟩ := Option.bind_eq_some_iff.1 hcross
    split at hcross
    · cases hcross
    next hexpired =>
    split at hcross
    · cases hcross
    next hmodel =>
    cases hcross
    exact ⟨top, e, htop, hf, Bool.eq_false_iff.2 hexpired, hmodel, rfl⟩
  · rintro ⟨top, e, htop, hf, hexpired, hmodel, rfl⟩
    refine Option.bind_eq_some_iff.2 ⟨top, htop, Option.bind_eq_some_iff.2 ⟨e, hf, ?_⟩⟩
    rw [if_neg (by rw [hexpired]; exact Bool.false_ne_true), if_neg hmodel]
    rfl

/-- an answer is that of an entry that passes the tests or, with sharing between tenants, of any entry
that is not too old -/
lemma get_hit (hhit : (get cfg V r w).1 = some hit) :
    (∃ top rest e, V.search w.vectors r.partitionKey (cfg.embed r.prompt) = top :: rest ∧
      w.cache.entries.find top.id = some e ∧ Passes cfg r e ∧
        hit = ⟨e.response, e.prompt, top.score⟩) ∨
    cfg.crossTenant ∧ ∃ (top : VectorSearchResult) (e : CacheEntry),
      (get cfg V r w).2.cache.entries.find top.id = some e ∧ e.isExpired cfg r.nowShared = false ∧
        ¬ (r.model ≠ "" ∧ e.model ≠ "" ∧ e.model ≠ r.model) ∧
        hit = ⟨e.response, e.prompt, top.score⟩ := by
  unfold Cache.get at hhit ⊢
  split at hhit
  · next hsearch =>
    split at hhit
    · next hon =>
      obtain ⟨top, e, -, he⟩ := getCrossTenant_eq_some_iff.1 hhit
      exact .inr ⟨hon, top, e, he⟩
    · cases hhit
  · next top rest hsearch =>
    rw [hsearch]
    simp only at hhit ⊢
    split at hhit
    · next hon =>
      obtain ⟨top, e, -, he⟩ := getCrossTenant_eq_some_iff.1 hhit
      exact .inr ⟨hon.2, top, e, he⟩
    · rcases lookup_cases cfg r top w.cache with ⟨e, hf, hp, heq⟩ | ⟨hnone, -, -⟩
      · rw [heq] at hhit
        cases hhit
        exact .inl ⟨top, rest, e, rfl, hf, hp, rfl⟩
      · rw [hnone] at hhit
        cases hhit

theorem get_answer (hhit : (get cfg V r w).1 = some hit) :
    ∃ e ∈ w.cache.entries.rows, e.response = hit.response ∧
      ¬ (r.model ≠ "" ∧ e.model ≠ "" ∧ e.model ≠ r.model) ∧
      (e.isExpired cfg r.now = false ∧ e.partitionKey = r.partitionKey ∨
        cfg.crossTenant ∧ e.isExpired cfg r.nowShared = false) := by
  rcases get_hit hhit with ⟨top, -, e, -, hf, hp, rfl⟩ | ⟨hon, top, e, hf, hnow, hmodel, rfl⟩
  · exact ⟨e, (Table.find_eq_some_iff.1 hf).1, rfl, hp.2.1, .inl ⟨hp.1, hp.2.2⟩⟩
  · -- a shared answer is looked for after the lookup, which may only have touched the entry
    have hsame : Each (fun e => ∃ e0 ∈ w.cache.entries.rows, ∃ used,
        e = { e0 with lastAccessed := used }) (Cache.get cfg V r w).2.cache := by
      refine Each.get (fun e he => ⟨e, he, e.lastAccessed, rfl⟩) (fun e now he => ?_) _
      obtain ⟨e0, hmem, used, rfl⟩ := he
      exact ⟨e0, hmem, now, rfl⟩
    obtain ⟨e0, hmem, used, rfl⟩ := hsame.of_find hf
    exact ⟨e0, hmem, rfl, hmodel, .inr ⟨hon, hnow⟩⟩

end

def oneFound : VectorStore Unit where
  insert v _ _ _ := (true, v)
  remove v _ _ := (true, v)
  search _ _ _ := [⟨"ns_0_0", 0⟩]
  searchAllPartitions _ _ := [⟨"ns_0_0", 0⟩]

def smallCache : CacheConfig where
  embed _ := []
  hasher _ := 0
  ttl := 60
  maxEntries := 10
  hasStore := false
  crossTenant := false

end AegisGate.Cache
