import AegisGate.Lib.Table
import AegisGate.Lib.Run

/-!
# The in-process vector store

`VectorIndex`, `PartitionedVectorIndex` and `HnswVectorStore` of `src/src/cache/`: an index for each
partition key, with a bucket for the keys that come after the last free partition.

* `Hnsw`  the graph of `hnswlib`, by its slots: `markDelete` gives none of them back,
  `addPoint` with `replace_deleted` takes a deleted one where there is one;
* `VectorIndex`  the ids of one partition with their labels;
* `VectorStore`  the interface the cache uses, `hnswVectorStore` its in-process implementation.

The admission test of `VectorIndex::insert` looks at `cur_element_count`, the slots ever allocated.
That number is the largest number of ids stored at one time (`Grows`), so an index that was full once
refuses every new id from then on, however many it has removed.

What a search finds is left open: it is a parameter of `hnswVectorStore`.
-/

namespace AegisGate.Cache

open Table List

abbrev Vec := List UInt32

structure VectorSearchResult where
  id : String
  score : UInt32
  deriving Repr, DecidableEq

/-! ## the index of one partition -/

/-- the slots of the graph: the labels in use, and the number marked as deleted -/
structure Hnsw where
  live : List Nat := []
  deleted : Nat := 0
  deriving Repr, DecidableEq

def Hnsw.curElementCount (h : Hnsw) : Nat := h.live.length + h.deleted

def Hnsw.addPoint (h : Hnsw) (label : Nat) : Hnsw :=
  { live := label :: h.live, deleted := h.deleted - 1 }

def Hnsw.markDelete (h : Hnsw) (label : Nat) : Hnsw :=
  { live := h.live.erase label, deleted := h.deleted + 1 }

abbrev Labels := Table (Prod.fst : String × Nat → String)

structure VectorIndex where
  dim : Nat
  maxElements : Nat
  index : Hnsw := {}
  idToLabel : Labels := empty
  nextLabel : Nat := 0

open VectorIndex

namespace VectorIndex

section
variable {x : VectorIndex} {vec : Vec}

def insert (x : VectorIndex) (id : String) (vec : Vec) : Bool × VectorIndex :=
  if vec.length ≠ x.dim then (false, x)
  else if (x.idToLabel.find id).isSome then (true, x)
  else if x.index.curElementCount ≥ x.maxElements then (false, x)
  else (true, { x with index := x.index.addPoint x.nextLabel
                       idToLabel := x.idToLabel.put (id, x.nextLabel)
                       nextLabel := x.nextLabel + 1 })

def remove (x : VectorIndex) (id : String) : Bool × VectorIndex :=
  match x.idToLabel.find id with
  | none => (false, x)
  | some (_, label) =>
    (true, { x with index := x.index.markDelete label, idToLabel := x.idToLabel.erase id })

def size (x : VectorIndex) : Nat := x.idToLabel.size

/-- the labels in use are those of the ids -/
def Sound (x : VectorIndex) : Prop := x.index.live.Perm (x.idToLabel.rows.map Prod.snd)

lemma Sound.length (h : x.Sound) : x.index.live.length = x.size := by
  rw [h.length_eq, length_map, size, Table.size]

lemma sound_new (dim maxElements : Nat) : (mk dim maxElements {} empty 0).Sound :=
  Perm.refl _

def Sized (x : VectorIndex) (dim maxElements : Nat) : Prop :=
  x.dim = dim ∧ x.maxElements = maxElements

/-- what a call does to an index: it keeps its shape, and its slots are those allocated before or
those the ids need now -/
structure Grows (x x' : VectorIndex) : Prop where
  dim : x'.dim = x.dim
  max : x'.maxElements = x.maxElements
  sound : x'.Sound
  count : x'.index.curElementCount = Max.max x.index.curElementCount x'.size

lemma Grows.refl (h : x.Sound) : x.Grows x := by
  refine ⟨rfl, rfl, h, ?_⟩
  rw [Hnsw.curElementCount, h.length]
  omega

lemma insert_cases (x : VectorIndex) (id : String) (hv : vec.length = x.dim) :
    ((x.idToLabel.find id).isSome ∧ x.insert id vec = (true, x)) ∨
    (x.idToLabel.find id = none ∧ x.maxElements ≤ x.index.curElementCount ∧
      x.insert id vec = (false, x)) ∨
    (x.idToLabel.find id = none ∧ x.index.curElementCount < x.maxElements ∧
      x.insert id vec = (true, { x with index := x.index.addPoint x.nextLabel
                                        idToLabel := x.idToLabel.put (id, x.nextLabel)
                                        nextLabel := x.nextLabel + 1 })) := by
  rw [insert, if_neg (not_not_intro hv)]
  by_cases hid : (x.idToLabel.find id).isSome
  · rw [if_pos hid]
    exact .inl ⟨hid, rfl⟩
  · have hnone : x.idToLabel.find id = none := Option.not_isSome_iff_eq_none.1 hid
    rw [if_neg hid]
    by_cases hc : x.index.curElementCount ≥ x.maxElements
    · rw [if_pos hc]
      exact .inr (.inl ⟨hnone, hc, rfl⟩)
    · rw [if_neg hc]
      exact .inr (.inr ⟨hnone, Nat.lt_of_not_le hc, rfl⟩)

lemma insert_iff (x : VectorIndex) (id : String) (hv : vec.length = x.dim) :
    (x.insert id vec).1 ↔
      (x.idToLabel.find id).isSome ∨ x.index.curElementCount < x.maxElements := by
  rcases x.insert_cases id hv with ⟨hid, e⟩ | ⟨hid, hc, e⟩ | ⟨hid, hc, e⟩
  · simp [e, hid]
  · simp [e, hid, hc]
  · simp [e, hc]

lemma erase_rows_of_find_none {t : Labels} {id : String} (h : t.find id = none) (label : Nat) :
    (t.put (id, label)).rows = (id, label) :: t.rows :=
  congrArg ((id, label) :: ·) (erase_rows_of_none h)

lemma insert_grows (h : x.Sound) (id : String) (hv : vec.length = x.dim) :
    x.Grows (x.insert id vec).2 ∧ x.size ≤ (x.insert id vec).2.size := by
  rcases x.insert_cases id hv with ⟨_, e⟩ | ⟨_, _, e⟩ | ⟨hid, _, e⟩
  · rw [e]
    exact ⟨.refl h, Nat.le_refl _⟩
  · rw [e]
    exact ⟨.refl h, Nat.le_refl _⟩
  · have hrows := erase_rows_of_find_none hid x.nextLabel
    have hsize : (x.idToLabel.put (id, x.nextLabel)).size = x.size + 1 := by
      rw [size_put, hid]
      rfl
    rw [e]
    refine ⟨⟨rfl, rfl, ?_, ?_⟩, ?_⟩
    · show (x.nextLabel :: x.index.live).Perm _
      rw [hrows]
      exact h.cons _
    · -- a deleted slot is taken where there is one, and a new one is allocated otherwise
      show x.index.live.length + 1 + (x.index.deleted - 1) = Max.max (x.index.live.length +
        x.index.deleted) (x.idToLabel.put (id, x.nextLabel)).size
      rw [hsize, h.length]
      omega
    · show x.size ≤ (x.idToLabel.put (id, x.nextLabel)).size
      omega

lemma remove_cases (x : VectorIndex) (id : String) :
    x.remove id = (false, x) ∨ ∃ label, x.idToLabel.find id = some (id, label) ∧
      x.remove id = (true, { x with index := x.index.markDelete label
                                    idToLabel := x.idToLabel.erase id }) := by
  rw [remove]
  cases h : x.idToLabel.find id with
  | none => exact .inl rfl
  | some p =>
    obtain ⟨id', label⟩ := p
    have hid : id' = id := key_of_find h
    subst hid
    exact .inr ⟨label, rfl, rfl⟩

lemma remove_grows (h : x.Sound) (id : String) :
    x.Grows (x.remove id).2 ∧ (x.remove id).2.size ≤ x.size := by
  rcases x.remove_cases id with e | ⟨label, hid, e⟩
  · rw [e]
    exact ⟨.refl h, Nat.le_refl _⟩
  · have hperm := perm_erase hid
    have hmem : label ∈ x.index.live :=
      h.mem_iff.2 (mem_map.2 ⟨_, (find_eq_some_iff.1 hid).1, rfl⟩)
    have hsize : (x.idToLabel.erase id).size + 1 = x.size := by
      have := size_erase x.idToLabel id
      rw [hid] at this
      exact this
    have hlive : (x.index.live.erase label).length + 1 = x.index.live.length := by
      rw [length_erase_of_mem hmem]
      have := length_pos_of_mem hmem
      omega
    rw [e]
    refine ⟨⟨rfl, rfl, ?_, ?_⟩, ?_⟩
    · have := (h.trans (hperm.map Prod.snd)).erase label
      rwa [map_cons, erase_cons_head] at this
    · show (x.index.live.erase label).length + (x.index.deleted + 1) = Max.max
        (x.index.live.length + x.index.deleted) (x.idToLabel.erase id).size
      have hlen := h.length
      omega
    · show (x.idToLabel.erase id).size ≤ x.size
      omega

end

end VectorIndex

/-! ## calls of one index -/

inductive IndexCall where
  | insert (id : String) (vec : Vec)
  | remove (id : String)

def VectorIndex.step (x : VectorIndex) : IndexCall → VectorIndex
  | .insert id vec => (x.insert id vec).2
  | .remove id => (x.remove id).2

def IndexCall.Fits (dim : Nat) : IndexCall → Prop
  | .insert _ vec => vec.length = dim
  | .remove _ => True

def IndexCall.id : IndexCall → String
  | .insert id _ => id
  | .remove id => id

lemma VectorIndex.find_step {id : String} (x : VectorIndex) {c : IndexCall} (hc : c.id ≠ id) :
    (x.step c).idToLabel.find id = x.idToLabel.find id := by
  cases c with
  | insert id' vec =>
    rw [step, insert]
    split_ifs
    · rfl
    · rfl
    · rfl
    · exact find_put_ne (v := (id', _)) hc
  | remove id' =>
    rw [step, remove]
    split
    · rfl
    · exact (find_erase _ _ _).trans (if_neg hc)

lemma VectorIndex.step_grows {x : VectorIndex} (h : x.Sound) {c : IndexCall} (hc : c.Fits x.dim) :
    x.Grows (x.step c) := by
  cases c with
  | insert id vec => exact (insert_grows h id hc).1
  | remove id => exact (remove_grows h id).1

/-- after any calls, a new id is taken exactly when the index has never been full -/
lemma VectorIndex.insert_run_iff (dim maxElements : Nat) (l : List IndexCall)
    (hl : ∀ c ∈ l, c.Fits dim) (id : String) (vec : Vec) (hv : vec.length = dim)
    (hid : (Run.exec step { dim, maxElements } l).idToLabel.find id = none) :
    ((Run.exec step { dim, maxElements } l).insert id vec).1 ↔
      ∀ l', l' <+: l → (Run.exec step { dim, maxElements } l').size < maxElements := by
  have hinv : ∀ (x : VectorIndex) (c : IndexCall), x.Sound ∧ x.Sized dim maxElements →
      c.Fits dim → (x.step c).Sound ∧ (x.step c).Sized dim maxElements := by
    intro x c ⟨hs, hd, hm⟩ hc
    have hg := step_grows hs (hd ▸ hc)
    exact ⟨hg.sound, hg.dim.trans hd, hg.max.trans hm⟩
  have h0 : ({ dim, maxElements } : VectorIndex).Sound ∧
      ({ dim, maxElements } : VectorIndex).Sized dim maxElements :=
    ⟨sound_new dim maxElements, rfl, rfl⟩
  obtain ⟨-, hd, hm⟩ := Run.exec_inv (fun x c hc hx => hinv x c hx hc) l _ h0 hl
  rw [insert_iff _ _ (hv.trans hd.symm), hid, hm]
  have hpeak := Run.exec_lt_iff (fun x : VectorIndex => x.index.curElementCount) size
    hinv (fun x c hx hc => (step_grows hx.1 (hx.2.1 ▸ hc)).count) maxElements l _ h0 hl rfl
  rw [← hpeak]
  simp

/-! ## an index for each partition -/

structure PartitionedVectorIndex where
  dim : Nat
  maxElements : Nat
  maxPartitions : Nat
  partitions : Table (Prod.fst : String × VectorIndex → String) := empty

namespace PartitionedVectorIndex

def kOverflowKey : String := "_overflow"

variable (p : PartitionedVectorIndex)

def resolveKey (key : String) : String :=
  if (p.partitions.find key).isSome then key
  else if p.partitions.size ≥ p.maxPartitions ∧ key ≠ "" ∧ key ≠ kOverflowKey then kOverflowKey
  else key

/-- the key of the index that `getOrCreate` gives: the empty key goes to the bucket here, not in
`resolveKey` -/
def homeKey (key : String) : String :=
  let resolved := p.resolveKey key
  if (p.partitions.find resolved).isSome then resolved
  else if p.partitions.size ≥ p.maxPartitions ∧ resolved ≠ kOverflowKey then kOverflowKey
  else resolved

/-- the index of a key, a new one where there is none -/
def indexAt (k : String) : VectorIndex :=
  match p.partitions.find k with
  | some (_, x) => x
  | none => { dim := p.dim, maxElements := p.maxElements }

def setIndex (k : String) (x : VectorIndex) : PartitionedVectorIndex :=
  { p with partitions := p.partitions.put (k, x) }

def insert (key id : String) (vec : Vec) : Bool × PartitionedVectorIndex :=
  let k := p.homeKey key
  let r := (p.indexAt k).insert id vec
  (r.1, p.setIndex k r.2)

def remove (key id : String) : Bool × PartitionedVectorIndex :=
  let k := p.resolveKey key
  match p.partitions.find k with
  | none => (false, p)
  | some (_, x) =>
    let r := x.remove id
    (r.1, p.setIndex k r.2)

lemma indexAt_setIndex (k k' : String) (x : VectorIndex) :
    (p.setIndex k x).indexAt k' = if k = k' then x else p.indexAt k' := by
  rw [indexAt, setIndex, find_put]
  by_cases h : k = k'
  · rw [if_pos h, if_pos h]
  · rw [if_neg h, if_neg h]
    rfl

end PartitionedVectorIndex

namespace PartitionedVectorIndex

def Sound (p : PartitionedVectorIndex) : Prop :=
  ∀ k, (p.indexAt k).Sound ∧ (p.indexAt k).Sized p.dim p.maxElements

/-- the store keeps its shape, and every index has the slots it had or those that its ids need -/
structure Grows (p p' : PartitionedVectorIndex) : Prop where
  dim : p'.dim = p.dim
  max : p'.maxElements = p.maxElements
  sound : p'.Sound
  count : ∀ k, (p'.indexAt k).index.curElementCount =
    Max.max (p.indexAt k).index.curElementCount (p'.indexAt k).size

def Shrinks (p p' : PartitionedVectorIndex) : Prop :=
  p.Grows p' ∧ ∀ k, (p'.indexAt k).size ≤ (p.indexAt k).size

def Expands (p p' : PartitionedVectorIndex) : Prop :=
  p.Grows p' ∧ ∀ k, (p.indexAt k).size ≤ (p'.indexAt k).size

variable {p p' p'' : PartitionedVectorIndex}

section
variable (h : p.Sound)
include h

lemma Sound.size_le (k : String) : (p.indexAt k).size ≤ (p.indexAt k).index.curElementCount := by
  rw [Hnsw.curElementCount, (h k).1.length]
  omega

lemma Grows.refl : p.Grows p :=
  ⟨rfl, rfl, h, fun k => by have := h.size_le k; omega⟩

lemma Shrinks.refl : p.Shrinks p := ⟨.refl h, fun _ => Nat.le_refl _⟩

lemma Expands.refl : p.Expands p := ⟨.refl h, fun _ => Nat.le_refl _⟩

lemma Shrinks.grows (h1 : p.Shrinks p') (h2 : p'.Grows p'') : p.Grows p'' where
  dim := h2.dim.trans h1.1.dim
  max := h2.max.trans h1.1.max
  sound := h2.sound
  count k := by
    have hc := h1.1.count k
    have hs := h1.2 k
    have hle := h.size_le k
    rw [h2.count k]
    omega

lemma Shrinks.trans (h1 : p.Shrinks p') (h2 : p'.Shrinks p'') : p.Shrinks p'' :=
  ⟨h1.grows h h2.1, fun k => (h2.2 k).trans (h1.2 k)⟩

end

lemma Expands.trans (h1 : p.Expands p') (h2 : p'.Expands p'') : p.Expands p'' := by
  refine ⟨⟨h2.1.dim.trans h1.1.dim, h2.1.max.trans h1.1.max, h2.1.sound, fun k => ?_⟩,
    fun k => (h1.2 k).trans (h2.2 k)⟩
  have hc := h1.1.count k
  have hs := h2.2 k
  rw [h2.1.count k]
  omega

lemma setIndex_grows (h : p.Sound) {k : String} {x : VectorIndex}
    (hx : (p.indexAt k).Grows x) : p.Grows (p.setIndex k x) := by
  refine ⟨rfl, rfl, fun k' => ?_, fun k' => ?_⟩
  · rw [indexAt_setIndex]
    by_cases hk : k = k'
    · rw [if_pos hk]
      exact ⟨hx.sound, hx.dim.trans (h k).2.1, hx.max.trans (h k).2.2⟩
    · rw [if_neg hk]
      exact h k'
  · rw [indexAt_setIndex]
    by_cases hk : k = k'
    · subst hk
      rw [if_pos rfl, hx.count]
    · rw [if_neg hk]
      have := h.size_le k'
      omega

lemma insert_expands (h : p.Sound) (key id : String) {vec : Vec} (hv : vec.length = p.dim) :
    p.Expands (p.insert key id vec).2 := by
  obtain ⟨hg, hs⟩ := insert_grows (h (p.homeKey key)).1 id
    (hv.trans (h (p.homeKey key)).2.1.symm)
  refine ⟨setIndex_grows h hg, fun k => ?_⟩
  rw [insert, indexAt_setIndex]
  by_cases hk : p.homeKey key = k
  · subst hk
    rw [if_pos rfl]
    exact hs
  · rw [if_neg hk]

lemma remove_cases (p : PartitionedVectorIndex) (key id : String) :
    p.remove key id = (false, p) ∨ ∃ k x, p.partitions.find (p.resolveKey key) = some (k, x) ∧
      p.remove key id = ((x.remove id).1, p.setIndex (p.resolveKey key) (x.remove id).2) := by
  unfold remove
  simp only
  cases p.partitions.find (p.resolveKey key) with
  | none => exact .inl rfl
  | some r => exact .inr ⟨r.1, r.2, rfl, rfl⟩

lemma remove_shrinks (h : p.Sound) (key id : String) : p.Shrinks (p.remove key id).2 := by
  rcases p.remove_cases key id with e | ⟨k', x, hf, e⟩
  · rw [e]
    exact .refl h
  · have hx : p.indexAt (p.resolveKey key) = x := by rw [indexAt, hf]
    obtain ⟨hg, hs⟩ := remove_grows (h (p.resolveKey key)).1 id
    rw [hx] at hs
    rw [e]
    refine ⟨setIndex_grows h (hx ▸ hg), fun k => ?_⟩
    rw [indexAt_setIndex]
    by_cases hk : p.resolveKey key = k
    · subst hk
      rw [if_pos rfl, hx]
      exact hs
    · rw [if_neg hk]

lemma insert_iff (h : p.Sound) (key id : String) {vec : Vec} (hv : vec.length = p.dim) :
    (p.insert key id vec).1 ↔ ((p.indexAt (p.homeKey key)).idToLabel.find id).isSome ∨
        (p.indexAt (p.homeKey key)).index.curElementCount < p.maxElements := by
  obtain ⟨-, hd, hm⟩ := h (p.homeKey key)
  rw [← hm, ← VectorIndex.insert_iff _ _ (hv.trans hd.symm)]
  rfl

lemma homeKey_remove (key key' id : String) : (p.remove key' id).2.homeKey key = p.homeKey key := by
  rcases p.remove_cases key' id with e | ⟨k', x, hf, e⟩
  · rw [e]
  · rw [e]
    have hfind (k : String) : ((p.setIndex (p.resolveKey key') (x.remove id).2).partitions.find
        k).isSome = (p.partitions.find k).isSome := by
      rw [setIndex, find_put]
      split
      · next e =>
        subst e
        rw [hf]
        rfl
      · rfl
    have hsize : (p.setIndex (p.resolveKey key') (x.remove id).2).partitions.size =
        p.partitions.size := by
      rw [setIndex, size_put, hf]
      rfl
    have hres : (p.setIndex (p.resolveKey key') (x.remove id).2).resolveKey key =
        p.resolveKey key := by
      rw [resolveKey, hfind, hsize, resolveKey]
      rfl
    rw [homeKey, hres, hfind, hsize, homeKey]
    rfl

/-! ## where a key leads

A key is resolved at every call.  What an insertion stored is found again, whatever is created later,
except for the empty key in a full table: `getOrCreate` sends it to the bucket, a lookup does not. -/

section
variable (p : PartitionedVectorIndex) (key id : String)

def getPartition : Option VectorIndex := (p.partitions.find (p.resolveKey key)).map Prod.snd

def contains : Bool := (p.getPartition key).any fun x => (x.idToLabel.find id).isSome

/-- the ids among which a search looks -/
def searched : List String :=
  ((p.getPartition key).map fun x => x.idToLabel.rows.map Prod.fst).getD []

def call : String × IndexCall → PartitionedVectorIndex
  | (key, .insert id vec) => (p.insert key id vec).2
  | (key, .remove id) => (p.remove key id).2

def Held : Prop := ((p.indexAt key).idToLabel.find id).isSome

/-- no partition of the key, and no room for one -/
def Absent : Prop :=
  p.partitions.find key = none ∧ p.maxPartitions ≤ p.partitions.size ∧ key ≠ kOverflowKey

lemma found_iff : p.contains key id ∧ id ∈ p.searched key ∧ (p.remove key id).1 ↔
    p.Held (p.resolveKey key) id := by
  unfold contains searched getPartition remove Held indexAt
  dsimp only
  cases p.partitions.find (p.resolveKey key) with
  | none => simp [Table.find, Table.empty]
  | some r =>
    have hids : id ∈ r.2.idToLabel.rows.map Prod.fst ↔ (r.2.idToLabel.find id).isSome := by
      simp [Option.isSome_iff_exists, find_eq_some_iff]
    have hremove : (r.2.remove id).1 = (r.2.idToLabel.find id).isSome := by
      rw [VectorIndex.remove]
      cases r.2.idToLabel.find id <;> rfl
    simp [hids, hremove]

lemma homeKey_cases : p.homeKey key = key ∧ ((p.partitions.find key).isSome ∨
      p.partitions.size < p.maxPartitions ∨ key = kOverflowKey) ∨
    p.Absent key ∧ p.homeKey key = kOverflowKey := by
  unfold homeKey resolveKey Absent
  by_cases hk : (p.partitions.find key).isSome
  · simp [hk]
  by_cases ho : key = kOverflowKey
  · simp [ho]
  by_cases hs : p.partitions.size < p.maxPartitions
  · simp [hk, hs, Nat.not_le.2 hs]
  · by_cases he : key = "" <;> simp_all

/-- a call writes the index of one partition, which is there or has room -/
lemma call_cases (c : String × IndexCall) : p.call c = p ∨
    ∃ k, p.call c = p.setIndex k ((p.indexAt k).step c.2) ∧ ∀ key, p.Absent key → k ≠ key := by
  obtain ⟨key, _ | _⟩ := c
  case insert id vec =>
    refine .inr ⟨p.homeKey key, rfl, ?_⟩
    rintro _ ⟨hnone, hfull, ho⟩ rfl
    rcases p.homeKey_cases key with ⟨hk, h⟩ | ⟨-, hk⟩
    · rw [hk] at hnone ho
      rw [hnone] at h
      rcases h with h | h | h
      · cases h
      · omega
      · exact ho h
    · exact ho hk
  case remove id =>
    rcases p.remove_cases key id with e | ⟨k, x, hf, e⟩
    · exact .inl (congrArg Prod.snd e)
    · have hx : p.indexAt (p.resolveKey key) = x := by rw [indexAt, hf]
      refine .inr ⟨_, (congrArg Prod.snd e).trans (by rw [hx]; rfl), ?_⟩
      rintro _ ⟨hnone, -⟩ rfl
      rw [hf] at hnone
      cases hnone

end

section
variable {key id : String}

lemma Absent.call (h : p.Absent key) (c : String × IndexCall) : (p.call c).Absent key := by
  rcases p.call_cases c with e | ⟨k, e, hk⟩
  · rwa [e]
  · rw [e]
    refine ⟨?_, h.2.1.trans ?_, h.2.2⟩
    · rw [setIndex, find_put_ne (hk key h), h.1]
    · rw [setIndex, size_put]
      omega

lemma Held.call (h : p.Held key id) {c : String × IndexCall} (hc : c.2.id ≠ id) :
    (p.call c).Held key id := by
  rcases p.call_cases c with e | ⟨k, e, -⟩
  · rwa [e]
  · rw [e, Held, indexAt_setIndex]
    split
    · rename_i hk
      rwa [VectorIndex.find_step _ hc, hk]
    · exact h

lemma Held.isSome (h : p.Held key id) : (p.partitions.find key).isSome := by
  by_contra hnone
  rw [Held, indexAt, Option.not_isSome_iff_eq_none.1 hnone] at h
  cases h

lemma held_insert {vec : Vec} (h : (p.insert key id vec).1) :
    (p.insert key id vec).2.Held (p.homeKey key) id := by
  rw [Held, insert, indexAt_setIndex, if_pos rfl]
  change ((p.indexAt (p.homeKey key)).insert id vec).1 at h
  unfold VectorIndex.insert at h ⊢
  split_ifs at h ⊢ <;> simp_all

end

/-- what is inserted is found again under its key, except under an empty key without a partition in a
full table: `insert` sends it to the bucket, `resolveKey` does not look there -/
theorem routing_stable_iff (p : PartitionedVectorIndex) (key id : String) (vec : Vec)
    (hin : (p.insert key id vec).1) (calls : List (String × IndexCall))
    (hcalls : ∀ c ∈ calls, c.2.id ≠ id) :
    let q := Run.exec call (p.insert key id vec).2 calls
    q.contains key id ∧ id ∈ q.searched key ∧ (q.remove key id).1 ↔
      key ≠ "" ∨ (p.partitions.find "").isSome ∨ p.partitions.size < p.maxPartitions := by
  intro q
  have hheld : q.Held (p.homeKey key) id :=
    Run.exec_inv (P := (·.2.id ≠ id)) (I := (Held · (p.homeKey key) id)) (fun q c hc h => h.call hc)
      calls _ (held_insert hin) hcalls
  rw [found_iff]
  rcases p.homeKey_cases key with ⟨hk, h⟩ | ⟨habsent, hk⟩
  · -- the key has a partition of its own
    rw [hk] at hheld
    rw [resolveKey, if_pos hheld.isSome]
    refine iff_of_true hheld (or_iff_not_imp_left.2 fun he => ?_)
    rw [not_not.1 he] at h
    exact h.imp_right (·.resolve_right (by decide))
  · have hq : q.Absent key := Run.exec_inv (P := fun _ => True) (I := (Absent · key))
      (fun q c _ h => h.call c) calls _ (habsent.call (key, .insert id vec)) (fun _ _ => trivial)
    rw [resolveKey, hq.1]
    by_cases he : key = ""
    · subst he
      refine iff_of_false (fun h => ?_) (by simp [habsent.1, habsent.2.1])
      have hsome := Held.isSome h
      simp [hq.1] at hsome
    · rw [hk] at hheld
      simpa [he, hq.2.1, hq.2.2] using hheld

/-- room for one partition, which is another's -/
def fullTable : PartitionedVectorIndex :=
  (insert { dim := 0, maxElements := 2, maxPartitions := 1 } "a" "x" []).2

theorem named_key_found : (Run.exec call (fullTable.insert "b" "y" []).2
    [("c", .insert "z" [])]).contains "b" "y" :=
  ((routing_stable_iff fullTable "b" "y" [] (by decide) _ (by decide)).2 (.inl (by decide))).1

theorem empty_key_lost : (fullTable.insert "" "y" []).1 ∧
    (fullTable.insert "" "y" []).2.contains "" "y" = false := by
  decide

end PartitionedVectorIndex

/-- what the cache asks of a vector store; number of results and threshold are part of the store -/
structure VectorStore (σ : Type) where
  insert : σ → String → String → Vec → Bool × σ
  remove : σ → String → String → Bool × σ
  search : σ → String → Vec → List VectorSearchResult
  searchAllPartitions : σ → Vec → List VectorSearchResult

def hnswVectorStore (search : PartitionedVectorIndex → String → Vec → List VectorSearchResult)
    (searchAll : PartitionedVectorIndex → Vec → List VectorSearchResult) :
    VectorStore PartitionedVectorIndex where
  insert := PartitionedVectorIndex.insert
  remove := PartitionedVectorIndex.remove
  search := search
  searchAllPartitions := searchAll

end AegisGate.Cache
