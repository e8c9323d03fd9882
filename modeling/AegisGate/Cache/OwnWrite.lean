import AegisGate.Cache.EntryBound
import AegisGate.Cache.Provenance
import AegisGate.Lib.Best
import Mathlib.Algebra.Order.Ring.Unbundled.Rat

/-!
# Reading back what was put

`put` stores an answer for a prompt, a model and a partition, and `get` with the same three looks for
the nearest vector.  The search returns one id and knows nothing of models, so that an entry of another
model for the same prompt may be returned in place of the new one.

* `exactStore`  a store that finds the nearest vectors and returns any one of them;
* `ReadsBack`  after the put, the get answers with a response stored for the prompt and the model.

`reads_back_iff`: however the store chooses among equally near vectors, the put is read back exactly
when all rivals in the partition are harmless.
-/

namespace AegisGate.Cache

open List Table

/-! ## an exact store -/

structure Item where
  (bucket id : String)
  vec : Vec
  deriving DecidableEq

def Item.key (x : Item) : String × String := (x.bucket, x.id)

abbrev Shelf := Table Item.key

structure Metric where
  similarity : Vec → Vec → ℚ
  nearest : ∀ v u, u ≠ v → similarity v u < similarity v v
  threshold : ℚ
  reaches : ∀ v, threshold ≤ similarity v v
  /-- the index that a partition is in -/
  route : String → String
  score : ℚ → UInt32

/-- which of the nearest vectors is returned, by a search in a partition or in all of them -/
abbrev TieBreak := Option String → List Item → ℕ

section
variable (M : Metric)

def Metric.search (pick : List Item → ℕ) (l : List Item) (v : Vec) : List VectorSearchResult :=
  let near := Best.best (M.similarity v ·.vec) l
  (((Best.choose (pick near) near).filter (M.threshold ≤ M.similarity v ·.vec)).map
      (fun x => ⟨x.id, M.score (M.similarity v x.vec)⟩)).toList

def exactStore (pick : TieBreak) : VectorStore Shelf where
  insert t partitionKey id v := (true, t.put ⟨M.route partitionKey, id, v⟩)
  remove t partitionKey id :=
    ((t.find (M.route partitionKey, id)).isSome, t.erase (M.route partitionKey, id))
  search t partitionKey v :=
    M.search (pick (some partitionKey)) (t.rows.filter (·.bucket = M.route partitionKey)) v
  searchAllPartitions t v := M.search (pick none) t.rows v

variable {M} {v : Vec} {l : List Item} {x a : Item}

lemma best_eq (ha : a ∈ l) (hv : a.vec = v) :
    Best.best (M.similarity v ·.vec) l = l.filter (·.vec = v) := by
  refine Best.best_eq_filter ha (fun x hx => ?_) fun x hx => ?_
  · rw [of_decide_eq_true hx, hv]
  · rw [hv]
    exact M.nearest v x.vec (of_decide_eq_false hx)

lemma search_eq {pick : List Item → ℕ} (hx : x.vec = v)
    (hpick : Best.choose (pick (Best.best (M.similarity v ·.vec) l))
      (Best.best (M.similarity v ·.vec) l) = some x) :
    M.search pick l v = [⟨x.id, M.score (M.similarity v v)⟩] := by
  unfold Metric.search
  simp only [hpick]
  rw [Option.filter_some, hx, if_pos (decide_eq_true (M.reaches v)), Option.map_some, hx]
  rfl

lemma search_found (pick : List Item → ℕ) (ha : a ∈ l) (hv : a.vec = v) : ∃ x ∈ l, x.vec = v ∧
      M.search pick l v = [⟨x.id, M.score (M.similarity v v)⟩] := by
  have hbest := best_eq (M := M) ha hv
  have hne : Best.best (M.similarity v ·.vec) l ≠ [] := by
    rw [hbest]
    exact ne_nil_of_mem (mem_filter.2 ⟨ha, decide_eq_true hv⟩)
  obtain ⟨x, hx, hchoose⟩ := Best.choose_mem (pick _) hne
  have hmem := hx
  rw [hbest, mem_filter] at hmem
  have hvec : x.vec = v := of_decide_eq_true hmem.2
  exact ⟨x, hmem.1, hvec, search_eq hvec hchoose⟩

lemma search_any (hx : x ∈ l) (hv : x.vec = v) :
    M.search (·.idxOf x) l v = [⟨x.id, M.score (M.similarity v v)⟩] := by
  refine search_eq hv (Best.choose_idxOf ?_)
  rw [best_eq hx hv]
  exact mem_filter.2 ⟨hx, decide_eq_true hv⟩

end

/-! ## reading back -/

def PutRequest.asked (p : PutRequest) (now nowShared : Int) : GetRequest :=
  ⟨p.prompt, p.model, p.partitionKey, now, nowShared⟩

def ReadsBack (cfg : CacheConfig) {σ : Type} (V : VectorStore σ) (p : PutRequest) (now nowShared : Int)
    (w : World σ) : Prop :=
  ∃ hit, (get cfg V (p.asked now nowShared) (put cfg V p w)).1 = some hit ∧
    ∃ e ∈ (put cfg V p w).cache.entries.rows,
      e.prompt = p.prompt ∧ e.model = p.model ∧ e.response = hit.response

section
variable (cfg : CacheConfig) (M : Metric) (p : PutRequest) (g : GetRequest) (w : World Shelf)
  (s : CacheState)

/-- the sweep of the put leaves the entry -/
def Stays (e : CacheEntry) : Prop :=
  ¬ ((s.putCounter + 1) % kEvictInterval = 0 ∧ e.isExpired cfg p.now)

/-- an id other than the new one that the store has for the vector of the prompt -/
structure Rival (x : Item) : Prop where
  held : x ∈ w.vectors.rows
  stays : ∀ e ∈ w.cache.entries.rows, e.id = x.id → M.route e.partitionKey = x.bucket →
    Stays cfg p w.cache e
  vec : x.vec = cfg.embed p.prompt
  other : x.id ≠ allocatedId cfg w.cache p

def Kept (id : String) (e : CacheEntry) : Prop :=
  s.entries.find id = some e ∧ Stays cfg p s e

/-- a response that is stored for the prompt and the model, before the put or by it -/
def Own (response : String) : Prop :=
  response = p.response ∨ ∃ id e, id ≠ allocatedId cfg s p ∧ Kept cfg p s id e ∧
    e.prompt = p.prompt ∧ e.model = p.model ∧ e.response = response

/-- the entry of the id has expired when it is looked at -/
def Expires (x : Item) : Prop := ∃ e, Kept cfg p w.cache x.id e ∧ e.isExpired cfg g.now

/-- the search through all partitions answers with a response for the model if it finds the id -/
def ServesShared (x : Item) : Prop :=
  ∃ e, Kept cfg p w.cache x.id e ∧ e.isExpired cfg g.nowShared = false ∧
    ¬ (g.model ≠ "" ∧ e.model ≠ "" ∧ e.model ≠ g.model) ∧ Own cfg p w.cache e.response

/-- Found in the partition, the id leads to a response for the prompt and the model: its own or,
with sharing between tenants, that of whatever is found next. -/
def Harmless (x : Item) : Prop :=
  (∃ e, Kept cfg p w.cache x.id e ∧ Passes cfg g e ∧ Own cfg p w.cache e.response) ∨
    cfg.crossTenant ∧ (∀ e, Kept cfg p w.cache x.id e → ¬ Passes cfg g e) ∧
      ∀ y, Rival cfg M p w y → ¬ (Expires cfg p g w x ∧ x.id ≠ "" ∧ y = x) →
        ServesShared cfg p g w y ∧ ¬ (Expires cfg p g w x ∧ y.id = x.id)

end

/-! ## what the put leaves -/

section
variable {cfg : CacheConfig} {M : Metric} {p : PutRequest} {w : World Shelf} {pick : TieBreak}
  {s : CacheState} {id : String} {e : CacheEntry}

lemma find_drop_all {old : List CacheEntry} :
    (old.foldl (fun s e => s.drop e.id) s).entries.find id = some e ↔
      s.entries.find id = some e ∧ ∀ e' ∈ old, e'.id ≠ id := by
  induction old generalizing s with
  | nil => simp
  | cons e' old ih =>
    rw [foldl_cons, ih, entries_drop, find_erase]
    by_cases hid : e'.id = id
    · simp [hid]
    · simp [hid]

lemma find_evictExpiredLocked {now : Int} :
    (evictExpiredLocked cfg now s).2.entries.find id = some e ↔
      s.entries.find id = some e ∧ e.isExpired cfg now = false := by
  unfold evictExpiredLocked
  rw [find_drop_all]
  refine and_congr_right fun hf => ?_
  obtain ⟨hmem, hid⟩ := find_eq_some_iff.1 hf
  constructor
  · intro hold
    by_contra hexpired
    exact hold e (mem_filter.2 ⟨hmem, eq_true_of_ne_false hexpired⟩) hid
  · intro hexpired e' he' hid'
    obtain ⟨hmem', hexpired'⟩ := mem_filter.1 he'
    have hf' := find_eq_some_iff.2 ⟨hmem', hid'⟩
    rw [hf] at hf'
    cases hf'
    rw [hexpired] at hexpired'
    cases hexpired'

lemma find_sweep : (sweep cfg p.now s).2.entries.find id = some e ↔ Kept cfg p s id e := by
  unfold sweep Kept Stays
  split
  · next hsweeps =>
    rw [find_evictExpiredLocked]
    simp [hsweeps]
  · next hsweeps => simp [hsweeps]

lemma mem_sweep {partitionKey : String} :
    (id, partitionKey) ∈ (sweep cfg p.now s).1 ↔ ∃ e ∈ s.entries.rows, ¬ Stays cfg p s e ∧
      e.id = id ∧ e.partitionKey = partitionKey := by
  unfold sweep Stays
  split
  · next hsweeps =>
    unfold evictExpiredLocked
    simp [hsweeps, and_assoc]
  · next hsweeps => simp [hsweeps]

lemma allocate_free (hfree : s.entries.size < cfg.maxEntries) :
    (allocate cfg p.model p.now s).1.2 = (sweep cfg p.now s).1 ∧
      (allocate cfg p.model p.now s).2.entries = (sweep cfg p.now s).2.entries := by
  have hsize := size_sweep cfg p.now s
  have hroom : makeRoom cfg (sweep cfg p.now s).2 = ([], (sweep cfg p.now s).2) := by
    unfold makeRoom
    rw [if_neg (by omega)]
  unfold allocate
  simp only [hroom, append_nil, and_self]

lemma mem_removeAll {removed : List (String × String)} {t : Shelf} {x : Item} :
    x ∈ (removeAll (exactStore M pick) removed t).rows ↔
      x ∈ t.rows ∧ ∀ r ∈ removed, ¬ (M.route r.2 = x.bucket ∧ r.1 = x.id) := by
  induction removed generalizing t with
  | nil => simp [removeAll]
  | cons r removed ih =>
    show x ∈ (removeAll (exactStore M pick) removed (t.erase (M.route r.2, r.1))).rows ↔ _
    rw [ih, forall_mem_cons]
    show (x ∈ t.rows.filter _ ∧ _) ↔ _
    have hkey : decide (x.key ≠ (M.route r.2, r.1)) ↔ ¬ (M.route r.2 = x.bucket ∧ r.1 = x.id) := by
      rw [decide_eq_true_iff, Item.key, ne_comm, Ne, Prod.mk.injEq]
    rw [mem_filter, and_assoc, hkey]

def PutRequest.item (cfg : CacheConfig) (M : Metric) (p : PutRequest) (s : CacheState) : Item :=
  ⟨M.route p.partitionKey, allocatedId cfg s p, cfg.embed p.prompt⟩

lemma item_mem_put : p.item cfg M w.cache ∈ (put cfg (exactStore M pick) p w).vectors.rows :=
  mem_cons_self

lemma find_put_new :
    (put cfg (exactStore M pick) p w).cache.entries.find (allocatedId cfg w.cache p) =
      some (p.entry (allocatedId cfg w.cache p)) := by
  exact find_put_self _ _

section
variable (hfree : w.cache.entries.size < cfg.maxEntries)
include hfree

lemma find_put_other {id : String} {e : CacheEntry} (hid : id ≠ allocatedId cfg w.cache p) :
    (put cfg (exactStore M pick) p w).cache.entries.find id = some e ↔ Kept cfg p w.cache id e := by
  show ((allocate cfg p.model p.now w.cache).2.entries.put
    (p.entry (allocatedId cfg w.cache p))).find id = some e ↔ _
  have hne : (p.entry (allocatedId cfg w.cache p)).id ≠ id := fun h => hid h.symm
  rw [find_put_ne hne, (allocate_free hfree).2, find_sweep]

lemma mem_put_vectors {x : Item} : x ∈ (put cfg (exactStore M pick) p w).vectors.rows ↔
    x = p.item cfg M w.cache ∨ (x ∈ w.vectors.rows ∧ (∀ e ∈ w.cache.entries.rows, e.id = x.id →
      M.route e.partitionKey = x.bucket → Stays cfg p w.cache e) ∧
        x.key ≠ (p.item cfg M w.cache).key) := by
  have hkept : (∀ r ∈ (sweep cfg p.now w.cache).1, ¬ (M.route r.2 = x.bucket ∧ r.1 = x.id)) ↔
      ∀ e ∈ w.cache.entries.rows, e.id = x.id → M.route e.partitionKey = x.bucket →
        Stays cfg p w.cache e := by
    constructor
    · intro h e he hid hroute
      by_contra hgone
      exact h (e.id, e.partitionKey) (mem_sweep.2 ⟨e, he, hgone, rfl, rfl⟩) ⟨hroute, hid⟩
    · rintro h ⟨id, partitionKey⟩ hr ⟨hroute, hid⟩
      obtain ⟨e, he, hgone, rfl, rfl⟩ := mem_sweep.1 hr
      exact hgone (h e he hid hroute)
  show x ∈ p.item cfg M w.cache :: (removeAll (exactStore M pick)
    (allocate cfg p.model p.now w.cache).1.2 w.vectors).rows.filter _ ↔ _
  rw [mem_cons, mem_filter, mem_removeAll, (allocate_free hfree).1, hkept, and_assoc,
    decide_eq_true_iff]
  rfl

lemma new_or_rival {x : Item} (hx : x ∈ (put cfg (exactStore M pick) p w).vectors.rows)
    (hv : x.vec = cfg.embed p.prompt) : x.id = allocatedId cfg w.cache p ∨ Rival cfg M p w x := by
  rcases (mem_put_vectors hfree).1 hx with rfl | ⟨hheld, hstays, -⟩
  · exact .inl rfl
  · by_cases hid : x.id = allocatedId cfg w.cache p
    · exact .inl hid
    · exact .inr ⟨hheld, hstays, hv, hid⟩

lemma Rival.mem_put {x : Item} (h : Rival cfg M p w x) :
    x ∈ (put cfg (exactStore M pick) p w).vectors.rows :=
  (mem_put_vectors hfree).2 (.inr ⟨h.held, h.stays, fun hkey => h.other (congrArg Prod.snd hkey)⟩)

lemma own_iff {response : String} : Own cfg p w.cache response ↔
    ∃ e ∈ (put cfg (exactStore M pick) p w).cache.entries.rows,
      e.prompt = p.prompt ∧ e.model = p.model ∧ e.response = response := by
  constructor
  · rintro (rfl | ⟨id, e, hid, hkept, hown⟩)
    · exact ⟨_, (find_eq_some_iff.1 find_put_new).1, rfl, rfl, rfl⟩
    · exact ⟨e, (find_eq_some_iff.1 ((find_put_other hfree hid).2 hkept)).1, hown⟩
  · rintro ⟨e, he, hown⟩
    have hf := find_eq_some_iff.2 ⟨he, rfl⟩
    by_cases hid : e.id = allocatedId cfg w.cache p
    · rw [hid, find_put_new] at hf
      cases hf
      exact .inl hown.2.2.symm
    · exact .inr ⟨e.id, e, hid, (find_put_other hfree hid).1 hf, hown⟩

end

end

/-! ## what the get finds -/

section
variable {cfg : CacheConfig} {σ : Type} {V : VectorStore σ} {g : GetRequest} {w : World σ}
  {top : VectorSearchResult}

lemma get_passes (hs : V.search w.vectors g.partitionKey (cfg.embed g.prompt) = [top])
    {e : CacheEntry} (hf : w.cache.entries.find top.id = some e) (hp : Passes cfg g e) :
    (get cfg V g w).1 = some ⟨e.response, e.prompt, top.score⟩ := by
  unfold get
  rw [hs]
  rcases lookup_cases cfg g top w.cache with ⟨e', hf', -, heq⟩ | ⟨-, -, hno⟩
  · rw [hf] at hf'
    cases hf'
    simp [heq]
  · exact absurd hp (hno e hf)

section
variable (hno : ∀ e, w.cache.entries.find top.id = some e → ¬ Passes cfg g e)
include hno

lemma get_refused (hs : V.search w.vectors g.partitionKey (cfg.embed g.prompt) = [top]) :
    (get cfg V g w).1 =
      if cfg.crossTenant then getCrossTenant cfg V g (get cfg V g w).2 else none := by
  have hnone : (lookup cfg g top w.cache).1.2 = none := by
    rcases lookup_cases cfg g top w.cache with ⟨e, hf, hp, -⟩ | ⟨hnone, -, -⟩
    · exact absurd hp (hno e hf)
    · exact hnone
  unfold get
  rw [hs]
  simp [hnone]

lemma lookup_refused :
    lookup cfg g top w.cache =
      if (w.cache.entries.find top.id).any (CacheEntry.isExpired cfg g.now) then
        ((true, none), w.cache.drop top.id) else ((false, none), w.cache) := by
  unfold lookup
  cases hf : w.cache.entries.find top.id with
  | none => rfl
  | some e =>
    have hno := hno e hf
    simp only [Option.any_some]
    by_cases hexpired : e.isExpired cfg g.now
    · rw [if_pos hexpired, if_pos hexpired]
    · rw [if_neg hexpired, if_neg hexpired]
      split
      · rfl
      · next hmodel =>
        rw [if_pos]
        intro hkey
        exact hno ⟨Bool.eq_false_iff.2 hexpired, hmodel, hkey⟩

lemma get_state_refused (hs : V.search w.vectors g.partitionKey (cfg.embed g.prompt) = [top]) :
    (get cfg V g w).2 = if (w.cache.entries.find top.id).any (CacheEntry.isExpired cfg g.now) then
        ⟨w.cache.drop top.id,
          if top.id ≠ "" then (V.remove w.vectors g.partitionKey top.id).2 else w.vectors⟩
      else w := by
  unfold get
  rw [hs]
  simp only [lookup_refused hno]
  split
  · simp
  · simp

end

end

/-! ## the rivals of a put -/

section
variable {cfg : CacheConfig} {M : Metric} {p : PutRequest} {now nowShared : Int} {w : World Shelf}
  {pick : TieBreak} {x : Item}

lemma get_leaves {t : World Shelf} {g : GetRequest} {top : VectorSearchResult}
    (hx : x ∈ t.vectors.rows) (hbucket : x.bucket = M.route g.partitionKey) (hid : top.id = x.id)
    (hs : (exactStore M pick).search t.vectors g.partitionKey (cfg.embed g.prompt) = [top])
    (hno : ∀ e, t.cache.entries.find x.id = some e → ¬ Passes cfg g e) {expires : Prop}
    (hexpires : (∃ e, t.cache.entries.find x.id = some e ∧ e.isExpired cfg g.now) ↔ expires) :
    (∀ y, y ∈ (get cfg (exactStore M pick) g t).2.vectors.rows ↔
      y ∈ t.vectors.rows ∧ ¬ (expires ∧ x.id ≠ "" ∧ y = x)) ∧
    ∀ id e, (get cfg (exactStore M pick) g t).2.cache.entries.find id = some e ↔
      t.cache.entries.find id = some e ∧ ¬ (expires ∧ id = x.id) := by
  have hany : (t.cache.entries.find x.id).any (CacheEntry.isExpired cfg g.now) ↔ expires := by
    rw [← hexpires, Option.any_eq_true]
  have hstate := get_state_refused (by rw [hid]; exact hno) hs
  rw [hid] at hstate
  rw [hstate]
  by_cases he : expires
  · have hsame : ∀ y, y ∈ t.vectors.rows → (y.key ≠ (M.route g.partitionKey, x.id) ↔ ¬ y = x) := by
      intro y hy
      rw [← hbucket]
      exact not_congr ⟨inj_on_of_nodup_map t.vectors.nodup hy hx, fun hyx => hyx ▸ rfl⟩
    rw [if_pos (hany.2 he)]
    constructor
    · intro y
      by_cases hempty : x.id = ""
      · simp [hempty]
      · rw [if_pos hempty]
        show y ∈ t.vectors.rows.filter _ ↔ _
        rw [mem_filter, decide_eq_true_iff]
        refine and_congr_right fun hy => (hsame y hy).trans ?_
        simp [he, hempty]
    · intro id e
      rw [entries_drop, find_erase]
      by_cases hxid : x.id = id
      · simp [hxid, he]
      · rw [if_neg hxid]
        simp [he, Ne.symm hxid]
  · rw [if_neg (mt hany.1 he)]
    simp [he]

variable (hfree : w.cache.entries.size < cfg.maxEntries)
include hfree

lemma search_put (M : Metric) (pick : TieBreak) (p : PutRequest) : ∃ x top,
    x ∈ (put cfg (exactStore M pick) p w).vectors.rows ∧ x.bucket = M.route p.partitionKey ∧
    top.id = x.id ∧ (x.id = allocatedId cfg w.cache p ∨ Rival cfg M p w x) ∧
    (exactStore M pick).search (put cfg (exactStore M pick) p w).vectors p.partitionKey
      (cfg.embed p.prompt) = [top] := by
  have hitem : p.item cfg M w.cache ∈ (put cfg (exactStore M pick) p w).vectors.rows.filter
      (·.bucket = M.route p.partitionKey) := mem_filter.2 ⟨item_mem_put, decide_eq_true rfl⟩
  obtain ⟨x, hx, hv, hs⟩ := search_found (M := M) (pick (some p.partitionKey)) hitem rfl
  obtain ⟨hmem, hbucket⟩ := mem_filter.1 hx
  exact ⟨x, _, hmem, of_decide_eq_true hbucket, rfl, new_or_rival hfree hmem hv, hs⟩

lemma Rival.kept_iff (h : Rival cfg M p w x) {e : CacheEntry} :
    (put cfg (exactStore M pick) p w).cache.entries.find x.id = some e ↔ Kept cfg p w.cache x.id e :=
  find_put_other hfree h.other

lemma Rival.leaves (h : Rival cfg M p w x) (now nowShared : Int)
    (hbucket : x.bucket = M.route p.partitionKey) {top : VectorSearchResult} (hid : top.id = x.id)
    (hs : (exactStore M pick).search (put cfg (exactStore M pick) p w).vectors p.partitionKey
      (cfg.embed p.prompt) = [top])
    (hno : ∀ e, Kept cfg p w.cache x.id e → ¬ Passes cfg (p.asked now nowShared) e) :
    (∀ y, y ∈ (get cfg (exactStore M pick) (p.asked now nowShared)
        (put cfg (exactStore M pick) p w)).2.vectors.rows ↔
      y ∈ (put cfg (exactStore M pick) p w).vectors.rows ∧
        ¬ (Expires cfg p (p.asked now nowShared) w x ∧ x.id ≠ "" ∧ y = x)) ∧
    ∀ id e, (get cfg (exactStore M pick) (p.asked now nowShared)
        (put cfg (exactStore M pick) p w)).2.cache.entries.find id = some e ↔
      (put cfg (exactStore M pick) p w).cache.entries.find id = some e ∧
        ¬ (Expires cfg p (p.asked now nowShared) w x ∧ id = x.id) := by
  refine get_leaves (g := p.asked now nowShared) (h.mem_put hfree) hbucket hid hs
    (fun e he => hno e ((h.kept_iff hfree).1 he)) ?_
  exact exists_congr fun e => and_congr_left fun _ => h.kept_iff hfree

lemma reads_of_harmless (hnow : now - p.nowCommit ≤ cfg.ttl)
    (hshared : nowShared - p.nowCommit ≤ cfg.ttl)
    (hall : ∀ x, Rival cfg M p w x → x.bucket = M.route p.partitionKey →
      Harmless cfg M p (p.asked now nowShared) w x) :
    ReadsBack cfg (exactStore M pick) p now nowShared w := by
  have hfresh : ∀ id time, time - p.nowCommit ≤ cfg.ttl → (p.entry id).isExpired cfg time = false := by
    intro id time htime
    exact decide_eq_false (Int.not_lt.2 htime)
  obtain ⟨x, top, hx, hbucket, hid, hnew | hrival, hs⟩ := search_put hfree M pick p
  · refine ⟨_, get_passes hs (by rw [hid, hnew]; exact find_put_new) ⟨hfresh _ _ hnow, ?_, rfl⟩, ?_⟩
    · exact fun hclash => hclash.2.2 rfl
    · exact (own_iff hfree).1 (.inl rfl)
  · rcases hall x hrival hbucket with ⟨e, hkept, hp, hown⟩ | ⟨hon, hno, hshares⟩
    · exact ⟨_, get_passes hs (by rw [hid]; exact (hrival.kept_iff hfree).2 hkept) hp,
        (own_iff hfree).1 hown⟩
    · obtain ⟨hvectors, hentries⟩ := hrival.leaves hfree now nowShared hbucket hid hs hno
      have hrefused := get_refused (g := p.asked now nowShared)
        (fun e he => hno e ((hrival.kept_iff hfree).1 (hid ▸ he))) hs
      rw [hon, if_pos rfl] at hrefused
      have hitem := (hvectors (p.item cfg M w.cache)).2
        ⟨item_mem_put, fun hgone => hrival.other (congrArg Item.id hgone.2.2).symm⟩
      obtain ⟨y, hy, hv, hall⟩ := search_found (M := M) (pick none) hitem rfl
      have hy := (hvectors y).1 hy
      rcases new_or_rival hfree hy.1 hv with hnew | hother
      · refine ⟨_, hrefused.trans (getCrossTenant_eq_some_iff.2 ⟨_, _, congrArg List.head? hall,
          (hentries _ _).2 ⟨by rw [hnew]; exact find_put_new, ?_⟩, hfresh _ _ hshared, ?_, rfl⟩), ?_⟩
        · exact fun hgone => hrival.other (hgone.2.symm.trans hnew)
        · exact fun hclash => hclash.2.2 rfl
        · exact (own_iff hfree).1 (.inl rfl)
      · obtain ⟨⟨e, hkept, hexpired, hmodel, hown⟩, hgone⟩ := hshares y hother hy.2
        exact ⟨_, hrefused.trans (getCrossTenant_eq_some_iff.2 ⟨_, e, congrArg List.head? hall,
          (hentries _ _).2 ⟨(hother.kept_iff hfree).2 hkept, hgone⟩, hexpired, hmodel, rfl⟩),
          (own_iff hfree).1 hown⟩

/-- the store that finds `x` in the partition, and `y` in all of them -/
def firstThen (x y : Item) : TieBreak := fun partition near =>
  match partition with
  | some _ => near.idxOf x
  | none => near.idxOf y

lemma Rival.search_first (h : Rival cfg M p w x) (hbucket : x.bucket = M.route p.partitionKey)
    (y : Item) :
    (exactStore M (firstThen x y)).search (put cfg (exactStore M (firstThen x y)) p w).vectors
      p.partitionKey (cfg.embed p.prompt) =
        [⟨x.id, M.score (M.similarity (cfg.embed p.prompt) (cfg.embed p.prompt))⟩] :=
  search_any (mem_filter.2 ⟨h.mem_put hfree, decide_eq_true hbucket⟩) h.vec

lemma harmless_of_reads (hall : ∀ pick, ReadsBack cfg (exactStore M pick) p now nowShared w)
    (hrival : Rival cfg M p w x) (hbucket : x.bucket = M.route p.partitionKey) :
    Harmless cfg M p (p.asked now nowShared) w x := by
  by_cases hpasses : ∃ e, Kept cfg p w.cache x.id e ∧ Passes cfg (p.asked now nowShared) e
  · obtain ⟨e, hkept, hp⟩ := hpasses
    obtain ⟨hit, hhit, hown⟩ := hall (firstThen x x)
    rw [get_passes (hrival.search_first hfree hbucket x) ((hrival.kept_iff hfree).2 hkept) hp] at hhit
    cases hhit
    exact .inl ⟨e, hkept, hp, (own_iff hfree).2 hown⟩
  · have hno : ∀ e, Kept cfg p w.cache x.id e → ¬ Passes cfg (p.asked now nowShared) e :=
      fun e hkept hp => hpasses ⟨e, hkept, hp⟩
    -- the answer is that of the search through all partitions, whatever it finds
    have hcross : ∀ y, ∃ hit, (if cfg.crossTenant then getCrossTenant cfg (exactStore M (firstThen x y))
        (p.asked now nowShared) (get cfg (exactStore M (firstThen x y)) (p.asked now nowShared)
          (put cfg (exactStore M (firstThen x y)) p w)).2 else none) = some hit ∧
        Own cfg p w.cache hit.response := by
      intro y
      obtain ⟨hit, hhit, hown⟩ := hall (firstThen x y)
      rw [get_refused (fun e he => hno e ((hrival.kept_iff hfree).1 he))
        (hrival.search_first hfree hbucket y)] at hhit
      exact ⟨hit, hhit, (own_iff hfree).2 hown⟩
    have hon : cfg.crossTenant := by
      obtain ⟨hit, hhit, -⟩ := hcross x
      by_contra hoff
      rw [if_neg hoff] at hhit
      cases hhit
    refine .inr ⟨hon, hno, fun y hother hstill => ?_⟩
    obtain ⟨hvectors, hentries⟩ := hrival.leaves hfree now nowShared hbucket rfl
      (hrival.search_first hfree hbucket y) hno
    obtain ⟨hit, hhit, hown⟩ := hcross y
    rw [if_pos hon] at hhit
    obtain ⟨top, e, htop, hf, hexpired, hmodel, rfl⟩ := getCrossTenant_eq_some_iff.1 hhit
    have hsearch := search_any (M := M) ((hvectors y).2 ⟨hother.mem_put hfree, hstill⟩) hother.vec
    obtain rfl : _ = top := Option.some.inj ((congrArg List.head? hsearch).symm.trans htop)
    obtain ⟨hf, hgone⟩ := (hentries y.id e).1 hf
    exact ⟨⟨e, (hother.kept_iff hfree).1 hf, hexpired, hmodel, hown⟩, hgone⟩

end

/-- With room in the cache and within the entry's lifetime, a put is read back from every exact
store exactly when no rival in the partition does harm. -/
theorem reads_back_iff (cfg : CacheConfig) (M : Metric) (w : World Shelf) (p : PutRequest)
    (now nowShared : Int) (hfree : w.cache.entries.size < cfg.maxEntries)
    (hnow : now - p.nowCommit ≤ cfg.ttl) (hshared : nowShared - p.nowCommit ≤ cfg.ttl) :
    (∀ pick, ReadsBack cfg (exactStore M pick) p now nowShared w) ↔
      ∀ x, Rival cfg M p w x → x.bucket = M.route p.partitionKey →
        Harmless cfg M p (p.asked now nowShared) w x := by
  constructor
  · exact fun hall x hrival hbucket => harmless_of_reads hfree hall hrival hbucket
  · exact fun hall pick => reads_of_harmless hfree hnow hshared hall

def lettered : CacheConfig := { smallCache with embed := fun s => s.toList.map Char.val }

def sameLetters : Metric where
  similarity v u := if v = u then 1 else 0
  nearest v u h := by
    rw [if_neg (Ne.symm h), if_pos rfl]
    decide +kernel
  threshold := 1 / 2
  reaches v := by
    rw [if_pos rfl]
    decide +kernel
  route := id
  score _ := 0

def putFor (response model partitionKey : String) : PutRequest :=
  ⟨"q", response, model, partitionKey, 0, 0⟩

def answered (response model partitionKey : String) : World Shelf :=
  put lettered (exactStore sameLetters fun _ _ => 0) (putFor response model partitionKey)
    ⟨{}, empty⟩

/-- an answer of another model in another partition is no rival -/
theorem reads_back_beside :
    (answered "a" "m" "p").cache.entries.size < lettered.maxEntries ∧
      ∀ pick, ReadsBack lettered (exactStore sameLetters pick) (putFor "b" "n" "") 1 1
        (answered "a" "m" "p") := by
  refine ⟨by decide, (reads_back_iff lettered sameLetters (answered "a" "m" "p") (putFor "b" "n" "") 1 1
    (by decide) (by decide) (by decide)).2 fun x hrival hbucket => ?_⟩
  have hheld : x = ⟨"p", "ns_0_0", [113]⟩ := mem_singleton.1 hrival.held
  rw [hheld] at hbucket
  exact absurd hbucket (by decide)

/-- two models have answered the prompt, and the store returns the older of two equal vectors: the
second answer is not found -/
theorem other_model_hides_answer :
    Function.Injective lettered.embed ∧
      (answered "a" "m" "").cache.entries.size < lettered.maxEntries ∧
      (get lettered (exactStore sameLetters fun _ near => near.length - 1) ⟨"q", "n", "", 1, 1⟩
        (put lettered (exactStore sameLetters fun _ near => near.length - 1) (putFor "b" "n" "")
          (answered "a" "m" ""))).1 = none := by
  refine ⟨fun s t h => ?_, by decide, by decide +kernel⟩
  have hletters : Function.Injective (List.map Char.val) :=
    map_injective_iff.2 fun _ _ => Char.ext
  exact String.toList_inj.1 (hletters h)

end AegisGate.Cache
