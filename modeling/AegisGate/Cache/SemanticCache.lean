import AegisGate.Cache.VectorIndex
import AegisGate.Core.Json
import AegisGate.Lib.NodeList

/-!
# The semantic cache

`SemanticCache` of `src/src/cache/semantic_cache.cpp`: the entries, the list of their ids by last use
and the map from ids to the nodes of that list, beside a vector store that finds entries by their
embedding.

* under the lock  `allocate`, `commit`, `lookup`, `admitEntry`, `evictExpiredLocked`, `evictLRU` and
  `CacheState.clear` work on the state of the cache alone;
* calls  `put`, `get`, `warmUp`, `evictExpired`, `clear` put these together with the calls
  of the vector store, which are made without the lock.

The vector store is any implementation of the interface.  `std::hash`, the embedder and the clock are
parameters: a request carries the readings of the clock it meets.  The statistics, the adaptive
threshold, feedback and query patterns touch none of the containers and are left out; an
`unordered_map` is visited in the order of the table that stands for it.
-/

namespace AegisGate.Cache

structure CacheEntry where
  (id prompt response model partitionKey : String)
  (createdAt lastAccessed : Int)
  deriving Repr, DecidableEq

structure CacheHit where
  (response originalPrompt : String)
  similarity : UInt32
  deriving Repr, DecidableEq

structure CacheConfig where
  embed : String → Vec
  /-- `std::hash` -/
  hasher : String → Nat
  ttl : Nat
  maxEntries : Nat
  hasStore : Bool
  crossTenant : Bool

structure CacheState where
  entries : Table CacheEntry.id := Table.empty
  lruList : NodeList String := NodeList.empty
  lruMap : Table (Prod.fst : String × Nat → String) := Table.empty
  seqCounter : Nat := 0
  putCounter : Nat := 0
  /-- what `persistEntry` has written to the cache store, in this process -/
  persisted : List (String × Json) := []

def kEvictInterval : Nat := 100
def kMaxWarmUpValueSize : Nat := 1024 * 1024

section
variable (cfg : CacheConfig)

def makeNamespace (model : String) : String := "ns_" ++ toString (cfg.hasher model)

def makeEntryId (ns : String) (seq : Nat) : String := ns ++ "_" ++ toString seq

def CacheEntry.isExpired (now : Int) (e : CacheEntry) : Bool := now - e.createdAt > cfg.ttl

/-! ## under the lock -/

variable (s : CacheState)

/-- an expired entry goes, with its node -/
def CacheState.drop (id : String) : CacheState :=
  match s.lruMap.find id with
  | some (_, node) =>
    { s with entries := s.entries.erase id
             lruList := s.lruList.erase node
             lruMap := s.lruMap.erase id }
  | none => { s with entries := s.entries.erase id }

/-- the ids and partitions that were removed, and the state without them -/
def evictExpiredLocked (now : Int) (s : CacheState) : List (String × String) × CacheState :=
  let old := s.entries.rows.filter (CacheEntry.isExpired cfg now)
  (old.map fun e => (e.id, e.partitionKey), old.foldl (fun s e => s.drop e.id) s)

def evictLRU : List (String × String) × CacheState :=
  match s.lruList.back? with
  | none => ([], s)
  | some oldestId =>
    ([(oldestId, (s.entries.find oldestId).elim "" CacheEntry.partitionKey)],
      { s with entries := s.entries.erase oldestId
               lruList := s.lruList.popBack
               lruMap := s.lruMap.erase oldestId })

/-- the sweep of every hundredth put -/
def sweep (now : Int) (s : CacheState) : List (String × String) × CacheState :=
  if (s.putCounter + 1) % kEvictInterval = 0 then
    evictExpiredLocked cfg now { s with putCounter := s.putCounter + 1 }
  else ([], { s with putCounter := s.putCounter + 1 })

def makeRoom : List (String × String) × CacheState :=
  if s.entries.size ≥ cfg.maxEntries then evictLRU s else ([], s)

/-- the first phase of `put`: the new id, and what was evicted -/
def allocate (model : String) (now : Int) (s : CacheState) :
    (String × List (String × String)) × CacheState :=
  let swept := sweep cfg now s
  let made := makeRoom cfg swept.2
  ((makeEntryId (makeNamespace cfg model) made.2.seqCounter, swept.1 ++ made.1),
    { made.2 with seqCounter := made.2.seqCounter + 1 })

def persistEntry (e : CacheEntry) : String × Json :=
  ("sc:" ++ e.id, .obj [("id", .str e.id), ("prompt", .str e.prompt), ("response", .str e.response),
    ("model", .str e.model), ("partition_key", .str e.partitionKey)])

def commit (e : CacheEntry) (s : CacheState) : CacheState :=
  { s with entries := s.entries.put e
           lruList := s.lruList.pushFront e.id
           lruMap := s.lruMap.put (e.id, s.lruList.next)
           persisted := if cfg.hasStore then s.persisted ++ [persistEntry e] else s.persisted }

/-- a hit moves the node of its entry to the front -/
def CacheState.touch (e : CacheEntry) (now : Int) : CacheState :=
  match s.lruMap.find e.id with
  | some (_, node) =>
    { s with entries := s.entries.put { e with lastAccessed := now }
             lruList := (s.lruList.erase node).pushFront e.id
             lruMap := s.lruMap.put (e.id, s.lruList.next) }
  | none => { s with entries := s.entries.put { e with lastAccessed := now } }

structure GetRequest where
  (prompt model partitionKey : String)
  (now nowShared : Int)

/-- the critical section of `get`: whether the entry was expired, the hit, the state -/
def lookup (r : GetRequest) (top : VectorSearchResult) (s : CacheState) :
    (Bool × Option CacheHit) × CacheState :=
  match s.entries.find top.id with
  | none => ((false, none), s)
  | some e =>
    if e.isExpired cfg r.now then ((true, none), s.drop top.id)
    else if r.model ≠ "" ∧ e.model ≠ "" ∧ e.model ≠ r.model then ((false, none), s)
    else if e.partitionKey ≠ r.partitionKey then ((false, none), s)
    else ((false, some ⟨e.response, e.prompt, top.score⟩), s.touch e r.now)

/-- the critical section of `warmUp` -/
def admitEntry (e : CacheEntry) (s : CacheState) : Bool × CacheState :=
  if (s.entries.find e.id).isNone ∧ s.entries.size < cfg.maxEntries then
    (true, { s with entries := s.entries.put e
                    lruList := s.lruList.pushBack e.id
                    lruMap := s.lruMap.put (e.id, s.lruList.next) })
  else (false, s)

def CacheState.clear : List (String × String) × CacheState :=
  (s.entries.rows.map fun e => (e.id, e.partitionKey),
    { s with entries := Table.empty, lruMap := Table.empty,
             lruList := { s.lruList with nodes := [], fresh := by simp, nodup := List.nodup_nil } })

/-! ## calls -/

/-- a value of the cache store: its length, and what it parses to -/
structure StoredText where
  size : Nat
  json : Option Json

/-- the entry that a stored value stands for; a member of another type is a parse error -/
def warmEntry (now : Int) (v : Option StoredText) : Option CacheEntry := do
  let t ← v
  if t.size > kMaxWarmUpValueSize then none
  let j ← t.json
  let id ← (j.valueStr "id" "").toOption
  let prompt ← (j.valueStr "prompt" "").toOption
  let response ← (j.valueStr "response" "").toOption
  let model ← (j.valueStr "model" "").toOption
  let pk ← (j.valueStr "partition_key" "").toOption
  if id = "" ∨ prompt = "" then none
  return ⟨id, prompt, response, model, pk, now, now⟩

structure PutRequest where
  (prompt response model partitionKey : String)
  (now nowCommit : Int)

def PutRequest.entry (r : PutRequest) (id : String) : CacheEntry :=
  ⟨id, r.prompt, r.response, r.model, r.partitionKey, r.nowCommit, r.nowCommit⟩

structure World (σ : Type) where
  cache : CacheState := {}
  vectors : σ

variable {σ : Type} (V : VectorStore σ)

def removeAll (removed : List (String × String)) (v : σ) : σ :=
  removed.foldl (fun v r => (V.remove v r.2 r.1).2) v

def put (r : PutRequest) (w : World σ) : World σ :=
  let a := allocate cfg r.model r.now w.cache
  let i := V.insert (removeAll V a.1.2 w.vectors) r.partitionKey a.1.1 (cfg.embed r.prompt)
  ⟨if i.1 then commit cfg (r.entry a.1.1) a.2 else a.2, i.2⟩

def getCrossTenant (r : GetRequest) (w : World σ) : Option CacheHit := do
  let top ← (V.searchAllPartitions w.vectors (cfg.embed r.prompt)).head?
  let e ← w.cache.entries.find top.id
  if e.isExpired cfg r.nowShared then none
  else if r.model ≠ "" ∧ e.model ≠ "" ∧ e.model ≠ r.model then none
  else return ⟨e.response, e.prompt, top.score⟩

def get (r : GetRequest) (w : World σ) : Option CacheHit × World σ :=
  match V.search w.vectors r.partitionKey (cfg.embed r.prompt) with
  | [] => (if cfg.crossTenant then getCrossTenant cfg V r w else none, w)
  | top :: _ =>
    let o := lookup cfg r top w.cache
    let w' : World σ :=
      ⟨o.2, if o.1.1 ∧ top.id ≠ "" then (V.remove w.vectors r.partitionKey top.id).2 else w.vectors⟩
    (if o.1.2.isNone ∧ cfg.crossTenant then getCrossTenant cfg V r w' else o.1.2, w')

/-- one value of `warmUp`; that the vector store may refuse it is not looked at -/
def warmOne (w : World σ) (v : Int × Option StoredText) : World σ :=
  match warmEntry v.1 v.2 with
  | none => w
  | some e =>
    let a := admitEntry cfg e w.cache
    if a.1 then ⟨a.2, (V.insert w.vectors e.partitionKey e.id (cfg.embed e.prompt)).2⟩ else w

/-- `stored` has what the cache store answers for its keys, with the clock at each of them -/
def warmUp (stored : List (Int × Option StoredText)) (w : World σ) : World σ :=
  if cfg.hasStore then stored.foldl (warmOne cfg V) w else w

def evictExpired (now : Int) (w : World σ) : World σ :=
  let e := evictExpiredLocked cfg now w.cache
  ⟨e.2, removeAll V e.1 w.vectors⟩

def clear (w : World σ) : World σ :=
  let c := w.cache.clear
  ⟨c.2, removeAll V c.1 w.vectors⟩

inductive CacheCall where
  | warmUp (stored : List (Int × Option StoredText))
  | put (r : PutRequest)
  | get (r : GetRequest)
  | evictExpired (now : Int)
  | clear

def cacheStep (w : World σ) : CacheCall → World σ
  | .warmUp stored => warmUp cfg V stored w
  | .put r => put cfg V r w
  | .get r => (get cfg V r w).2
  | .evictExpired now => evictExpired cfg V now w
  | .clear => clear V w

end

end AegisGate.Cache
