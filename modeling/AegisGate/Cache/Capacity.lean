import AegisGate.Cache.Representation

/-!
# A full index stays full

`PipelineAssembler` gives the in-process vector store as many elements for each partition as the cache
may have entries.  At the limit a put evicts an entry, removes its vector and inserts the new one; the
slot of the removed vector is free again, but `VectorIndex::insert` asks for one that was never used.

`capacity_iff` says when a new id is taken: after any calls of one index, exactly when the index has
never been full; and after any calls of the cache, exactly when the index of the partition has never
been full, unless the id is there already.
-/

namespace AegisGate.Cache

open PartitionedVectorIndex VectorIndex Run

abbrev Search := PartitionedVectorIndex → String → Vec → List VectorSearchResult
abbrev SearchAll := PartitionedVectorIndex → Vec → List VectorSearchResult

section
variable (search : Search) (searchAll : SearchAll) {w : World PartitionedVectorIndex}

lemma removeAll_shrinks (removed : List (String × String)) : ∀ {p : PartitionedVectorIndex},
    p.Sound → p.Shrinks (removeAll (hnswVectorStore search searchAll) removed p) := by
  induction removed with
  | nil => intro p h; exact .refl h
  | cons r removed ih =>
    intro p h
    have h1 : p.Shrinks (p.remove r.2 r.1).2 := remove_shrinks h r.2 r.1
    exact h1.trans h (ih h1.1.sound)

lemma homeKey_removeAll (key : String) (removed : List (String × String)) :
    ∀ p : PartitionedVectorIndex,
      (removeAll (hnswVectorStore search searchAll) removed p).homeKey key = p.homeKey key := by
  induction removed with
  | nil => intro p; rfl
  | cons r removed ih =>
    intro p
    exact (ih (p.remove r.2 r.1).2).trans (homeKey_remove key r.2 r.1)

variable {cfg : CacheConfig} {dim : Nat} (hembed : ∀ prompt, (cfg.embed prompt).length = dim)
include hembed

lemma warmOne_expands (h : w.vectors.Sound) (hd : w.vectors.dim = dim)
    (v : Int × Option StoredText) :
    w.vectors.Expands (warmOne cfg (hnswVectorStore search searchAll) w v).vectors := by
  unfold warmOne
  split
  · exact .refl h
  · next e _ =>
    simp only
    split
    · exact insert_expands h e.partitionKey e.id ((hembed e.prompt).trans hd.symm)
    · exact .refl h

lemma warmUp_expands (stored : List (Int × Option StoredText)) :
    ∀ {w : World PartitionedVectorIndex}, w.vectors.Sound → w.vectors.dim = dim → w.vectors.Expands
        (stored.foldl (warmOne cfg (hnswVectorStore search searchAll)) w).vectors := by
  induction stored with
  | nil => intro w h _; exact .refl h
  | cons v stored ih =>
    intro w h hd
    have h1 := warmOne_expands search searchAll hembed h hd v
    exact h1.trans (ih h1.1.sound (h1.1.dim.trans hd))

lemma cacheStep_grows (h : w.vectors.Sound) (hd : w.vectors.dim = dim) (c : CacheCall) :
    w.vectors.Grows (cacheStep cfg (hnswVectorStore search searchAll) w c).vectors := by
  cases c with
  | put r =>
    have h1 := removeAll_shrinks search searchAll (allocate cfg r.model r.now w.cache).1.2 h
    exact h1.grows h (insert_expands h1.1.sound r.partitionKey
      (allocate cfg r.model r.now w.cache).1.1 ((hembed r.prompt).trans (h1.1.dim.trans hd).symm)).1
  | warmUp stored =>
    show w.vectors.Grows (warmUp cfg _ stored w).vectors
    unfold warmUp
    split
    · exact (warmUp_expands search searchAll hembed stored h hd).1
    · exact .refl h
  | get r =>
    show w.vectors.Grows (get cfg _ r w).2.vectors
    unfold get
    split
    · exact .refl h
    · simp only
      split
      · exact (remove_shrinks h r.partitionKey _).1
      · exact .refl h
  | evictExpired now | clear => exact (removeAll_shrinks search searchAll _ h).1

end

/-! ## after any calls -/

section
variable (search : Search) (searchAll : SearchAll) (cfg : CacheConfig) (dim maxPartitions : Nat)

def newCache : World PartitionedVectorIndex :=
  { vectors := { dim, maxElements := cfg.maxEntries, maxPartitions } }

def afterCalls (l : List CacheCall) : World PartitionedVectorIndex :=
  exec (cacheStep cfg (hnswVectorStore search searchAll)) (newCache cfg dim maxPartitions) l

variable (hembed : ∀ prompt, (cfg.embed prompt).length = dim)
include hembed

lemma afterCalls_spec (l : List CacheCall) (k : String) :
    let w := afterCalls search searchAll cfg dim maxPartitions
    ((w l).vectors.Sound ∧ (w l).vectors.dim = dim ∧ (w l).vectors.maxElements = cfg.maxEntries) ∧
      (((w l).vectors.indexAt k).index.curElementCount < cfg.maxEntries ↔
        ∀ l', l' <+: l → ((w l').vectors.indexAt k).size < cfg.maxEntries) := by
  have hstep : ∀ (w : World PartitionedVectorIndex) (c : CacheCall),
      (w.vectors.Sound ∧ w.vectors.dim = dim ∧ w.vectors.maxElements = cfg.maxEntries) → True →
      let v := (cacheStep cfg (hnswVectorStore search searchAll) w c).vectors
      v.Sound ∧ v.dim = dim ∧ v.maxElements = cfg.maxEntries := by
    intro w c ⟨hs, hd, hm⟩ _
    have hg := cacheStep_grows search searchAll hembed hs hd c
    exact ⟨hg.sound, hg.dim.trans hd, hg.max.trans hm⟩
  have h0 : (newCache cfg dim maxPartitions).vectors.Sound :=
    fun k => ⟨sound_new _ _, rfl, rfl⟩
  refine ⟨exec_inv (fun w c hc hw => hstep w c hw hc) l _ ⟨h0, rfl, rfl⟩ fun _ _ => trivial, ?_⟩
  exact exec_lt_iff (fun w => (w.vectors.indexAt k).index.curElementCount)
    (fun w => (w.vectors.indexAt k).size) hstep
    (fun w c hw _ => (cacheStep_grows search searchAll hembed hw.1 hw.2.1 c).count k)
    cfg.maxEntries l _ ⟨h0, rfl, rfl⟩ (fun _ _ => trivial) rfl

end

/-- A new id is taken by an index exactly when the index has never been full; a put stores its entry
exactly when the index of its partition has never been full, or its id is there already. -/
theorem capacity_iff (dim : Nat) :
    (∀ (maxElements : Nat) (l : List IndexCall) (id : String) (vec : Vec),
      (∀ c ∈ l, c.Fits dim) → vec.length = dim →
      (exec step { dim, maxElements } l).idToLabel.find id = none →
      (((exec step { dim, maxElements } l).insert id vec).1 ↔
        ∀ l', l' <+: l → (exec step { dim, maxElements } l').size < maxElements)) ∧
    (∀ (search : Search) (searchAll : SearchAll) (cfg : CacheConfig) (maxPartitions : Nat)
      (l : List CacheCall) (r : PutRequest), (∀ prompt, (cfg.embed prompt).length = dim) →
      let w := afterCalls search searchAll cfg dim maxPartitions
      let a := allocate cfg r.model r.now (w l).cache
      let v := removeAll (hnswVectorStore search searchAll) a.1.2 (w l).vectors
      let home := (w l).vectors.homeKey r.partitionKey
      (((put cfg (hnswVectorStore search searchAll) r (w l)).cache.entries.find a.1.1).isSome ↔
        (a.2.entries.find a.1.1).isSome ∨ ((v.indexAt home).idToLabel.find a.1.1).isSome ∨
          ∀ l', l' <+: l → ((w l').vectors.indexAt home).size < cfg.maxEntries)) := by
  constructor
  · intro maxElements l id vec hl hv hid
    exact insert_run_iff dim maxElements l hl id vec hv hid
  · intro search searchAll cfg maxPartitions l r hembed w a v home
    have hspec := afterCalls_spec search searchAll cfg dim maxPartitions hembed l home
    have hs : (w l).vectors.Sound := hspec.1.1
    have hshrink : (w l).vectors.Shrinks v := removeAll_shrinks search searchAll a.1.2 hs
    -- the removals free no slot for the test of the insert
    have hcount : (v.indexAt home).index.curElementCount =
        ((w l).vectors.indexAt home).index.curElementCount := by
      have hc := hshrink.1.count home
      have hle := hshrink.2 home
      have hsize := hs.size_le home
      omega
    have hhome : v.homeKey r.partitionKey = home := homeKey_removeAll search searchAll _ _ _
    have hdim : (cfg.embed r.prompt).length = v.dim :=
      (hembed r.prompt).trans (hshrink.1.dim.trans hspec.1.2.1).symm
    have hmax : v.maxElements = cfg.maxEntries := hshrink.1.max.trans hspec.1.2.2
    have hinsert := PartitionedVectorIndex.insert_iff hshrink.1.sound r.partitionKey a.1.1 hdim
    rw [hhome, hcount, hmax, hspec.2] at hinsert
    rw [← hinsert]
    show ((if (v.insert r.partitionKey a.1.1 (cfg.embed r.prompt)).1 then
      commit cfg (r.entry a.1.1) a.2 else a.2).entries.find a.1.1).isSome ↔ _
    by_cases hi : (v.insert r.partitionKey a.1.1 (cfg.embed r.prompt)).1
    · have hfind : ((commit cfg (r.entry a.1.1) a.2).entries.find a.1.1).isSome := by
        show ((a.2.entries.put (r.entry a.1.1)).find (r.entry a.1.1).id).isSome
        rw [Table.find_put_self]
        rfl
      rw [if_pos hi]
      exact ⟨fun _ => .inr hi, fun _ => hfind⟩
    · rw [if_neg hi]
      exact ⟨.inl, fun h => h.elim id (absurd · hi)⟩

/-- an index for two ids that has held one -/
theorem capacity_second :
    ((exec step { dim := 1, maxElements := 2 } [.insert "a" [0]]).insert "b" [0]).1 = true := by
  refine ((capacity_iff 1).1 2 [.insert "a" [0]] "b" [0] ?_ rfl (by decide)).2 fun l' hl' => ?_
  · intro c hc
    rw [List.mem_singleton.1 hc]
    rfl
  · rcases List.prefix_cons_iff.1 hl' with rfl | ⟨t, rfl, ht⟩
    · decide
    · rw [List.prefix_nil.1 ht]
      decide

/-- an index for one id whose id was removed, and a cache for one entry that is put to twice -/
theorem full_index_refuses :
    ((exec step { dim := 1, maxElements := 1 } [.insert "a" [0], .remove "a"]).size = 0 ∧
      ((exec step { dim := 1, maxElements := 1 }
        [.insert "a" [0], .remove "a"]).insert "b" [0]).1 = false) ∧
    (afterCalls (fun _ _ _ => []) (fun _ _ => []) (sampleConfig 1) 1 4
        [.put samplePut]).cache.entries.size = 1 ∧
      (afterCalls (fun _ _ _ => []) (fun _ _ => []) (sampleConfig 1) 1 4
        [.put samplePut, .put samplePut]).cache.entries.size = 0 := by
  decide

end AegisGate.Cache
