import AegisGate.Cache.SemanticCache

/-!
# The three containers of the cache

`Represents s` is the representation invariant of `SemanticCache`: no id is twice in the list, the
map has the ids of the entries, each with its own node of the list, and the three containers have the
same ids.

Every call keeps it but one: a put that commits an id which is an entry already.  The ids are numbered
from zero in every process while `warmUp` takes over the ids of an earlier one, so the two can meet;
`represents_iff` says that the invariant holds in every state of a run exactly when they do not.  A
cache that is never warmed keeps to it (`represents_unwarmed`).
-/

namespace AegisGate.Cache

open List Table NodeList Option Nat Run

structure Represents (s : CacheState) : Prop where
  nodup : s.lruList.values.Nodup
  own : ∀ id node, s.lruMap.find id = some (id, node) ↔ (node, id) ∈ s.lruList.nodes
  ids : ∀ id, (id ∈ s.lruList.values ↔ (s.entries.find id).isSome) ∧
    ((s.lruMap.find id).isSome ↔ (s.entries.find id).isSome)

section
variable {s : CacheState} {id : String} {e : CacheEntry}

lemma isSome_lruMap_iff {s : CacheState} :
    (s.lruMap.find id).isSome ↔ ∃ node, s.lruMap.find id = some (id, node) := by
  constructor
  · intro h
    obtain ⟨⟨id', node⟩, hn⟩ := isSome_iff_exists.1 h
    have hid : id' = id := key_of_find hn
    exact ⟨node, by rw [hn, hid]⟩
  · rintro ⟨node, hn⟩
    rw [hn]
    rfl

lemma represents_of (nodup : s.lruList.values.Nodup)
    (own : ∀ id node, s.lruMap.find id = some (id, node) ↔ (node, id) ∈ s.lruList.nodes)
    (ids : ∀ id, (s.lruMap.find id).isSome ↔ (s.entries.find id).isSome) : Represents s := by
  refine ⟨nodup, own, fun id => ⟨?_, ids id⟩⟩
  rw [← ids id, isSome_lruMap_iff, mem_values]
  exact exists_congr fun node => (own id node).symm

lemma Represents.congr {s' : CacheState} (h : Represents s) (he : s'.entries = s.entries)
    (hl : s'.lruList = s.lruList) (hm : s'.lruMap = s.lruMap) : Represents s' := by
  refine ⟨hl ▸ h.nodup, ?_, ?_⟩
  · rw [hl, hm]
    exact h.own
  · rw [he, hl, hm]
    exact h.ids

/-! ## removals -/

/-- what every removal of an entry keeps, the sweep of the expired ones keeps -/
lemma evictExpiredLocked_keeps {P : CacheState → Prop} (hdrop : ∀ s id, P s → P (s.drop id))
    (cfg : CacheConfig) (now : Int) {s : CacheState} (h : P s) :
    P (evictExpiredLocked cfg now s).2 := by
  unfold evictExpiredLocked
  generalize s.entries.rows.filter (CacheEntry.isExpired cfg now) = old
  induction old generalizing s with
  | nil => exact h
  | cons e old ih => exact ih (hdrop s e.id h)

lemma entries_drop (s : CacheState) (id : String) : (s.drop id).entries = s.entries.erase id := by
  unfold CacheState.drop
  split <;> rfl

section
variable (h : Represents s)
include h

lemma Represents.drop (id : String) : Represents (s.drop id) := by
  unfold CacheState.drop
  cases hm : s.lruMap.find id with
  | none =>
    -- without a node there is no entry either
    have he : s.entries.find id = none := by
      have := (h.ids id).2
      rw [hm] at this
      exact not_isSome_iff_eq_none.1 (fun hs => by cases this.2 hs)
    refine represents_of h.nodup h.own fun x => ?_
    rw [(h.ids x).2, find_erase]
    by_cases hx : id = x
    · subst hx
      rw [if_pos rfl, he]
    · rw [if_neg hx]
  | some p =>
    obtain ⟨id', node⟩ := p
    have hid : id' = id := key_of_find hm
    subst hid
    have hnode := (h.own _ _).1 hm
    refine represents_of (h.nodup.sublist (s.lruList.values_erase_sublist node)) (fun x n => ?_)
      (fun x => ?_)
    · rw [find_erase, mem_erase]
      by_cases hx : id' = x
      · subst hx
        rw [if_pos rfl]
        refine ⟨nofun, fun ⟨hn, hne⟩ => ?_⟩
        exact absurd (handle_unique h.nodup hn hnode) hne
      · rw [if_neg hx, h.own]
        refine ⟨fun hn => ⟨hn, fun hne => ?_⟩, And.left⟩
        subst hne
        exact hx (value_unique hnode hn)
    · rw [find_erase, find_erase]
      by_cases hx : id' = x
      · rw [if_pos hx, if_pos hx]
        exact Iff.rfl
      · rw [if_neg hx, if_neg hx]
        exact (h.ids x).2

variable (cfg : CacheConfig)

lemma Represents.evictExpiredLocked (now : Int) : Represents (evictExpiredLocked cfg now s).2 :=
  evictExpiredLocked_keeps (fun _ id hs => hs.drop id) cfg now h

lemma evictLRU_eq_drop (hb : s.lruList.back? = some id) : (evictLRU s).2 = s.drop id := by
  obtain ⟨node, hn⟩ := split_back hb
  have hm : s.lruMap.find id = some (id, node) := by
    rw [h.own, hn]
    exact mem_append_right _ (mem_singleton.2 rfl)
  rw [evictLRU, hb, CacheState.drop, hm]
  rw [popBack_eq_erase hn]

lemma Represents.evictLRU : Represents (evictLRU s).2 := by
  cases hb : s.lruList.back? with
  | none =>
    rw [Cache.evictLRU, hb]
    exact h
  | some id =>
    rw [evictLRU_eq_drop h hb]
    exact h.drop id

lemma Represents.sweep (now : Int) : Represents (sweep cfg now s).2 := by
  have h' : Represents { s with putCounter := s.putCounter + 1 } := h.congr rfl rfl rfl
  unfold Cache.sweep
  split
  · exact h'.evictExpiredLocked cfg now
  · exact h'

lemma Represents.makeRoom : Represents (makeRoom cfg s).2 := by
  unfold Cache.makeRoom
  split
  · exact h.evictLRU
  · exact h

lemma Represents.allocate (model : String) (now : Int) : Represents (allocate cfg model now s).2 :=
  ((h.sweep cfg now).makeRoom cfg).congr rfl rfl rfl

end

lemma represents_clear (s : CacheState) : Represents s.clear.2 := by
  refine represents_of nodup_nil (fun id node => ?_) fun id => Iff.rfl
  exact ⟨nofun, nofun⟩

lemma represents_new : Represents {} :=
  (represents_clear {}).congr rfl rfl rfl

/-! ## additions -/

section
variable (h : Represents s)
include h

lemma Represents.add (he : s.entries.find e.id = none) {l : NodeList String}
    (hl : ∀ n, n ∈ l.nodes ↔ n = (s.lruList.next, e.id) ∨ n ∈ s.lruList.nodes)
    (hv : l.values.Nodup) :
    Represents { s with entries := s.entries.put e, lruList := l,
                        lruMap := s.lruMap.put (e.id, s.lruList.next) } := by
  have hnew (node : Nat) : (node, e.id) ∉ s.lruList.nodes := by
    intro hn
    have := (h.ids e.id).1.1 (mem_values.2 ⟨node, hn⟩)
    rw [he] at this
    cases this
  refine represents_of hv (fun x n => ?_) fun x => ?_
  · rw [hl, find_put]
    by_cases hx : e.id = x
    · subst hx
      rw [if_pos rfl]
      simp only [some.injEq, Prod.mk.injEq, true_and, and_true]
      exact ⟨fun e => .inl e.symm, fun e => e.elim Eq.symm (absurd · (hnew n))⟩
    · rw [if_neg hx, h.own]
      refine ⟨.inr, fun e => e.elim (fun e => ?_) id⟩
      exact absurd (congrArg Prod.snd e).symm hx
  · rw [find_put, find_put]
    by_cases hx : e.id = x
    · rw [if_pos hx, if_pos hx]
      exact Iff.rfl
    · rw [if_neg hx, if_neg hx]
      exact (h.ids x).2

lemma Represents.notMem_values (he : s.entries.find id = none) : id ∉ s.lruList.values := by
  rw [(h.ids id).1, he]
  exact Bool.false_ne_true

lemma Represents.admitEntry (cfg : CacheConfig) (e : CacheEntry) :
    Represents (admitEntry cfg e s).2 := by
  unfold Cache.admitEntry
  split
  · next hc =>
    have he : s.entries.find e.id = none := isNone_iff_eq_none.1 hc.1
    refine h.add he (s.lruList.mem_pushBack e.id) ?_
    rw [values_pushBack, nodup_append_comm]
    exact nodup_cons.2 ⟨h.notMem_values he, h.nodup⟩
  · exact h

lemma Represents.touch (he : s.entries.find id = some e) (now : Int) :
    Represents (s.touch e now) := by
  have hid : e.id = id := key_of_find he
  subst hid
  have hd := h.drop e.id
  have hnone : (s.drop e.id).entries.find e.id = none := by
    rw [entries_drop, find_erase, if_pos rfl]
  obtain ⟨node, hm⟩ := isSome_lruMap_iff.1 ((h.ids e.id).2.2 (by rw [he]; rfl))
  have hnodup : ((s.lruList.erase node).pushFront e.id).values.Nodup := by
    have hv := hd.notMem_values hnone
    have hn := hd.nodup
    rw [CacheState.drop, hm] at hv hn
    exact nodup_cons.2 ⟨hv, hn⟩
  have hadd := hd.add (e := { e with lastAccessed := now }) hnone
    (l := (s.drop e.id).lruList.pushFront e.id) (mem_pushFront _ _) ?_
  · rw [CacheState.drop, hm] at hadd
    rw [CacheState.touch, hm]
    refine hadd.congr ?_ rfl ?_
    · exact (put_erase s.entries { e with lastAccessed := now }).symm
    · exact (put_erase s.lruMap (e.id, s.lruList.next)).symm
  · rw [CacheState.drop, hm]
    exact hnodup

/-- a commit keeps the invariant exactly when its id is a new one -/
lemma Represents.commit_iff (cfg : CacheConfig) (e : CacheEntry) :
    Represents (commit cfg e s) ↔ s.entries.find e.id = none := by
  constructor
  · intro hc
    have hv : (e.id :: s.lruList.values).Nodup := hc.nodup
    have hnot := (nodup_cons.1 hv).1
    rw [(h.ids e.id).1] at hnot
    exact not_isSome_iff_eq_none.1 hnot
  · intro he
    have hadd := h.add he (s.lruList.mem_pushFront e.id)
      (nodup_cons.2 ⟨h.notMem_values he, h.nodup⟩)
    exact hadd.congr rfl rfl rfl

end

end

/-! ## calls -/

section
variable (cfg : CacheConfig) {σ : Type} (V : VectorStore σ) {w : World σ}

/-- the id of a put that comes to its commit is not that of an entry -/
def PutFresh (w : World σ) : CacheCall → Prop
  | .put r =>
    let a := allocate cfg r.model r.now w.cache
    (V.insert (removeAll V a.1.2 w.vectors) r.partitionKey a.1.1 (cfg.embed r.prompt)).1 →
      a.2.entries.find a.1.1 = none
  | _ => True

lemma Represents.warmOne (h : Represents w.cache) (v : Int × Option StoredText) :
    Represents (warmOne cfg V w v).cache := by
  unfold Cache.warmOne
  split
  · exact h
  · next e _ =>
    simp only
    split
    · exact h.admitEntry cfg e
    · exact h

theorem Represents.warmUp (h : Represents w.cache) (stored : List (Int × Option StoredText)) :
    Represents (warmUp cfg V stored w).cache := by
  unfold Cache.warmUp
  split
  · induction stored generalizing w with
    | nil => exact h
    | cons v stored ih => exact ih (h.warmOne cfg V v)
  · exact h

lemma Represents.lookup {s : CacheState} (h : Represents s) (r : GetRequest)
    (top : VectorSearchResult) : Represents (lookup cfg r top s).2 := by
  unfold Cache.lookup
  cases he : s.entries.find top.id with
  | none => exact h
  | some e =>
    simp only
    split_ifs
    · exact h.drop top.id
    · exact h
    · exact h
    · exact h.touch he r.now

section
variable (h : Represents w.cache)
include h

lemma Represents.get (r : GetRequest) : Represents (get cfg V r w).2.cache := by
  unfold Cache.get
  split
  · exact h
  · next top _ _ => exact h.lookup cfg r top

lemma Represents.put_iff (r : PutRequest) :
    Represents (put cfg V r w).cache ↔ PutFresh cfg V w (.put r) := by
  have ha := h.allocate cfg r.model r.now
  unfold put PutFresh
  simp only
  split
  · next hi =>
    rw [ha.commit_iff cfg]
    exact ⟨fun hnone _ => hnone, fun hnone => hnone hi⟩
  · next hi => exact ⟨fun _ e => absurd e hi, fun _ => ha⟩

lemma Represents.step_iff (c : CacheCall) :
    Represents (cacheStep cfg V w c).cache ↔ PutFresh cfg V w c := by
  cases c with
  | put r => exact h.put_iff cfg V r
  | warmUp stored => exact ⟨fun _ => trivial, fun _ => h.warmUp cfg V stored⟩
  | get r => exact ⟨fun _ => trivial, fun _ => h.get cfg V r⟩
  | evictExpired now => exact ⟨fun _ => trivial, fun _ => h.evictExpiredLocked cfg now⟩
  | clear => exact ⟨fun _ => trivial, fun _ => represents_clear w.cache⟩

end

/-- The representation invariant holds throughout a run, over any vector store and persisted values,
exactly when no put commits the id of an entry. -/
theorem represents_iff (v : σ) (l : List CacheCall) :
    (∀ l', l' <+: l → Represents (exec (cacheStep cfg V) { vectors := v } l').cache) ↔
      Along (cacheStep cfg V) (PutFresh cfg V) { vectors := v } l := by
  have h0 : Represents (⟨{}, v⟩ : World σ).cache := represents_new
  rw [← along_after_iff (P := fun w : World σ => Represents w.cache) l _ h0]
  exact along_congr (I := fun w : World σ => Represents w.cache) (A := fun _ => True)
    (fun w c hw _ => hw.step_iff cfg V c) (fun w c hw _ hc => (hw.step_iff cfg V c).2 hc) l _ h0
    (fun _ _ => trivial)

end

/-! ## the ids of one process -/

lemma makeEntryId_inj {ns ns' : String} {q q' : Nat}
    (h : makeEntryId ns q = makeEntryId ns' q') : q = q' := by
  have htail (ns : String) (q : Nat) :
      ((makeEntryId ns q).toList.reverse.takeWhile (· ≠ '_')).reverse = toDigits 10 q := by
    have hdigits : ∀ c ∈ (toDigits 10 q).reverse, decide (c ≠ '_') := by
      intro c hc
      rw [decide_eq_true_eq]
      rintro rfl
      exact underscore_not_in_toDigits (mem_reverse.1 hc)
    have hlist : (makeEntryId ns q).toList.reverse =
        (toDigits 10 q).reverse ++ '_' :: ns.toList.reverse := by
      rw [makeEntryId, toString_eq_repr, String.toList_append, String.toList_append,
        toList_repr, reverse_append, reverse_append]
      rfl
    rw [hlist, takeWhile_append_of_pos hdigits, takeWhile_cons_of_neg (by simp),
      append_nil, reverse_reverse]
  have hd : toDigits 10 q = toDigits 10 q' := by rw [← htail ns q, h, htail]
  rw [← ofDigitChars_ten_toDigits (n := q), hd, ofDigitChars_ten_toDigits]

/-- the entries have ids that this process has given out -/
def Numbered (s : CacheState) : Prop :=
  ∀ id, (s.entries.find id).isSome → ∃ ns q, id = makeEntryId ns q ∧ q < s.seqCounter

/-- `s'` has no other entries than `s`, and the same counter -/
def Within (s s' : CacheState) : Prop :=
  s'.seqCounter = s.seqCounter ∧ ∀ id, (s'.entries.find id).isSome → (s.entries.find id).isSome

section
variable {s : CacheState} (cfg : CacheConfig) (now : Int)

lemma Within.refl (s : CacheState) : Within s s := ⟨rfl, fun _ => id⟩

lemma Within.trans {s' s'' : CacheState} (h1 : Within s s') (h2 : Within s' s'') : Within s s'' :=
  ⟨h2.1.trans h1.1, fun id hid => h1.2 id (h2.2 id hid)⟩

lemma Numbered.within {s' : CacheState} (h : Numbered s) (hw : Within s s') : Numbered s' := by
  intro id hid
  rw [hw.1]
  exact h id (hw.2 id hid)

lemma isSome_find_erase {t : Table CacheEntry.id} {id x : String}
    (h : ((t.erase id).find x).isSome) : (t.find x).isSome := by
  rw [find_erase] at h
  split at h
  · cases h
  · exact h

section
variable (s : CacheState)

lemma within_drop (id : String) : Within s (s.drop id) := by
  refine ⟨?_, fun x hx => ?_⟩
  · unfold CacheState.drop
    split <;> rfl
  · rw [entries_drop] at hx
    exact isSome_find_erase hx

lemma within_evictExpiredLocked : Within s (evictExpiredLocked cfg now s).2 :=
  evictExpiredLocked_keeps (fun t id ht => ht.trans (within_drop t id)) cfg now (.refl s)

lemma within_evictLRU : Within s (evictLRU s).2 := by
  unfold evictLRU
  split
  · exact .refl s
  · exact ⟨rfl, fun x hx => isSome_find_erase hx⟩

lemma within_sweep : Within s (sweep cfg now s).2 := by
  unfold sweep
  split
  · exact within_evictExpiredLocked cfg now { s with putCounter := s.putCounter + 1 }
  · exact ⟨rfl, fun _ => id⟩

lemma within_makeRoom : Within s (makeRoom cfg s).2 := by
  unfold makeRoom
  split
  · exact within_evictLRU s
  · exact .refl s

end

lemma allocate_spec (model : String) (now : Int) (s : CacheState) :
    (allocate cfg model now s).1.1 = makeEntryId (makeNamespace cfg model) s.seqCounter ∧
      (allocate cfg model now s).2.seqCounter = s.seqCounter + 1 ∧
      ∀ id, ((allocate cfg model now s).2.entries.find id).isSome → (s.entries.find id).isSome := by
  have h := (within_sweep cfg now s).trans (within_makeRoom cfg (sweep cfg now s).2)
  refine ⟨?_, ?_, h.2⟩
  · rw [allocate]
    rw [h.1]
  · rw [allocate]
    rw [h.1]

lemma Numbered.find_next (h : Numbered s) (ns : String) {q : Nat} (hq : s.seqCounter ≤ q) :
    s.entries.find (makeEntryId ns q) = none := by
  rw [← not_isSome_iff_eq_none]
  intro hid
  obtain ⟨ns', q', e, hq'⟩ := h _ hid
  exact absurd (makeEntryId_inj e) (by omega)

lemma Numbered.touch (h : Numbered s) {e : CacheEntry} {id : String}
    (he : s.entries.find id = some e) (now : Int) : Numbered (s.touch e now) := by
  have hid : e.id = id := key_of_find he
  subst hid
  have hsub : (s.touch e now).entries = s.entries.put { e with lastAccessed := now } := by
    unfold CacheState.touch
    split <;> rfl
  have hseq : (s.touch e now).seqCounter = s.seqCounter := by
    unfold CacheState.touch
    split <;> rfl
  intro x hx
  rw [hseq]
  rw [hsub, find_put] at hx
  by_cases hk : e.id = x
  · subst hk
    exact h e.id (by rw [he]; rfl)
  · rw [if_neg hk] at hx
    exact h x hx

lemma Numbered.commit {cfg : CacheConfig} (h : Numbered s) {e : CacheEntry} {ns : String} {q : Nat}
    (he : e.id = makeEntryId ns q) (hq : q < s.seqCounter) : Numbered (commit cfg e s) := by
  intro x hx
  have hx : ((s.entries.put e).find x).isSome := hx
  rw [find_put] at hx
  by_cases hk : e.id = x
  · exact ⟨ns, q, hk ▸ he, hq⟩
  · rw [if_neg hk] at hx
    exact h x hx

end

section
variable (cfg : CacheConfig) {σ : Type} (V : VectorStore σ)

lemma Numbered.putFresh {w : World σ} (h : Numbered w.cache) (r : PutRequest) :
    PutFresh cfg V w (.put r) := by
  intro _
  obtain ⟨hid, -, hsub⟩ := allocate_spec cfg r.model r.now w.cache
  rw [hid, ← not_isSome_iff_eq_none]
  intro hs
  have := hsub _ hs
  rw [h.find_next _ (le_refl _)] at this
  cases this

lemma Numbered.step {w : World σ} (h : Numbered w.cache) {c : CacheCall}
    (hc : ∀ stored, c ≠ .warmUp stored) : Numbered (cacheStep cfg V w c).cache := by
  cases c with
  | warmUp stored => exact absurd rfl (hc stored)
  | put r =>
    obtain ⟨hid, hseq, hsub⟩ := allocate_spec cfg r.model r.now w.cache
    have ha : Numbered (allocate cfg r.model r.now w.cache).2 := by
      intro x hx
      obtain ⟨ns, q, e, hq⟩ := h x (hsub x hx)
      exact ⟨ns, q, e, by omega⟩
    show Numbered (put cfg V r w).cache
    unfold put
    simp only
    split
    · exact ha.commit hid (by omega)
    · exact ha
  | get r =>
    show Numbered (get cfg V r w).2.cache
    unfold get
    split
    · exact h
    · next top _ _ =>
      unfold lookup
      cases he : w.cache.entries.find top.id with
      | none => exact h
      | some e =>
        simp only
        split_ifs
        · exact h.within (within_drop _ _)
        · exact h
        · exact h
        · exact h.touch he r.now
  | evictExpired now => exact h.within (within_evictExpiredLocked cfg now w.cache)
  | clear =>
    intro x hx
    cases hx

/-- a cache that takes over no ids never meets them -/
theorem represents_unwarmed (v : σ) (l : List CacheCall)
    (hl : ∀ c ∈ l, ∀ stored, c ≠ .warmUp stored) :
    Represents (exec (cacheStep cfg V) { vectors := v } l).cache := by
  refine (exec_inv (I := fun w : World σ => Represents w.cache ∧ Numbered w.cache)
    (fun w c hc hw => ⟨(hw.1.step_iff cfg V c).2 ?_, hw.2.step cfg V hc⟩) l _
    ⟨represents_new, fun _ h => by cases h⟩ hl).1
  cases c with
  | put r => exact hw.2.putFresh cfg V r
  | _ => exact trivial

end

/-! ## two processes -/

def sampleConfig (maxEntries : Nat) : CacheConfig :=
  { embed := fun _ => [0], hasher := fun _ => 0, ttl := 3600, maxEntries, hasStore := true,
    crossTenant := false }

def acceptAll : VectorStore Unit where
  insert _ _ _ _ := (true, ())
  remove _ _ _ := (true, ())
  search _ _ _ := []
  searchAllPartitions _ _ := []

def samplePut : PutRequest := ⟨"q", "a", "m", "", 0, 0⟩

theorem represents_two_puts : Represents (exec (cacheStep (sampleConfig 10) acceptAll)
    { vectors := () } [.put samplePut, .put samplePut]).cache :=
  represents_unwarmed _ _ () _ (by simp)

/-- the values that an earlier process has persisted in one put -/
def earlierStore : List (Int × Option StoredText) :=
  (put (sampleConfig 10) acceptAll samplePut { vectors := () }).cache.persisted.map
    fun kv => (0, some ⟨80, some kv.2⟩)

theorem warm_id_twice :
    (exec (cacheStep (sampleConfig 10) acceptAll) { vectors := () }
        [.warmUp earlierStore, .put samplePut]).cache.lruList.values = ["ns_0_0", "ns_0_0"] ∧
      ¬ Represents (exec (cacheStep (sampleConfig 10) acceptAll) { vectors := () }
        [.warmUp earlierStore, .put samplePut]).cache := by
  have h : (exec (cacheStep (sampleConfig 10) acceptAll) { vectors := () }
      [.warmUp earlierStore, .put samplePut]).cache.lruList.values = ["ns_0_0", "ns_0_0"] := by
    decide
  refine ⟨h, fun hr => ?_⟩
  have hn := hr.nodup
  exact absurd hn (by decide)

end AegisGate.Cache
