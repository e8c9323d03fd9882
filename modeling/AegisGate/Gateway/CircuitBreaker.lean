import AegisGate.Lib.NodeList
import AegisGate.Lib.Table

/-!
# The circuit breaker

`CircuitBreaker` of the gateway, without the Redis backend.  The circuits of the models are spread over
shards by the hash of the model's name.  A shard holds a bounded number of them: the one that was not
used for the longest time makes room for a new one.

* `circuitFor`  the circuit of a model, which is made when it is not there;
* `allowRequest`  whether the model may be called; an open circuit is tried again after a while;
* `recordSuccess`, `recordFailure`  the outcome of a call.

Times are those of the steady clock, in nanoseconds.  An operation reads it once or twice: at `access`
when it looks for the circuit, and at `check` for the times of the circuit itself.
-/

namespace AegisGate

inductive CircuitState where
  | closed
  | open
  | halfOpen
  deriving DecidableEq, Repr

/-- durations are in seconds -/
structure CircuitConfig where
  failureThreshold : Int := 3
  resetTimeout : Int := 30
  halfOpenMaxCalls : Int := 1
  maxCircuits : ℕ := 512
  circuitIdleTtl : Int := 0

structure ModelCircuit where
  state : CircuitState := .closed
  failureCount : Int := 0
  halfOpenCalls : Int := 0
  lastFailure : Int := 0
  deriving DecidableEq, Repr

/-- `lruIt` is the iterator of the model's node in the list of the shard -/
structure CircuitEntry where
  model : String
  circuit : ModelCircuit := {}
  lastAccess : Int
  lruIt : ℕ

structure Shard where
  lru : NodeList String
  circuits : Table CircuitEntry.model

def Shard.empty : Shard := ⟨.empty, .empty⟩

def nanoseconds (seconds : Int) : Int := seconds * 1000000000

namespace Shard

variable (cfg : CircuitConfig) (cap : ℕ)

/-- the loop that makes room; each round takes a node off the list, so `fuel` is its length -/
def evict : ℕ → Shard → Shard
  | 0, s => s
  | fuel + 1, s =>
    if cap ≤ s.circuits.size then
      match s.lru.front? with
      | none => s
      | some victim => evict fuel ⟨s.lru.popFront, s.circuits.erase victim⟩
    else s

def insert (s : Shard) (model : String) (now : Int) : CircuitEntry × Shard :=
  let s := evict cap s.lru.nodes.length s
  let entry : CircuitEntry := ⟨model, {}, now, s.lru.next⟩
  (entry, ⟨s.lru.pushBack model, s.circuits.put entry⟩)

def circuitFor (s : Shard) (model : String) (now : Int) : CircuitEntry × Shard :=
  match s.circuits.find model with
  | some entry =>
    if 0 < cfg.circuitIdleTtl ∧ nanoseconds cfg.circuitIdleTtl < now - entry.lastAccess then
      insert cap ⟨s.lru.erase entry.lruIt, s.circuits.erase model⟩ model now
    else
      let entry := { entry with lastAccess := now }
      (entry, ⟨s.lru.moveBack entry.lruIt, s.circuits.put entry⟩)
  | none => insert cap s model now

/-- the circuit that `circuitFor` returned by reference is changed in place -/
def write (s : Shard) (entry : CircuitEntry) (circuit : ModelCircuit) : Shard :=
  { s with circuits := s.circuits.put { entry with circuit } }

end Shard

variable (cfg : CircuitConfig)

/-- the time of the transition from open to half-open has come -/
def ModelCircuit.effective (now : Int) (c : ModelCircuit) : ModelCircuit :=
  if c.state = .open ∧ nanoseconds cfg.resetTimeout ≤ now - c.lastFailure then
    { c with state := .halfOpen, halfOpenCalls := 0 }
  else c

/-- what `allowRequest` answers and leaves, once the state is the effective one -/
def ModelCircuit.letThrough (c : ModelCircuit) : Bool × ModelCircuit :=
  match c.state with
  | .open => (false, c)
  | .halfOpen =>
    if c.halfOpenCalls < cfg.halfOpenMaxCalls then
      (true, { c with halfOpenCalls := c.halfOpenCalls + 1 })
    else (false, c)
  | .closed => (true, c)

def ModelCircuit.succeed (c : ModelCircuit) : ModelCircuit :=
  { c with failureCount := 0, state := .closed }

def ModelCircuit.fail (now : Int) (c : ModelCircuit) : ModelCircuit :=
  let c := { c with failureCount := c.failureCount + 1, lastFailure := now }
  if c.state = .halfOpen then { c with state := .open }
  else if cfg.failureThreshold ≤ c.failureCount then { c with state := .open }
  else c

def kNumShards : ℕ := 16

/-- `hash` is `std::hash` on model names -/
structure CircuitBreaker where
  config : CircuitConfig
  hash : String → ℕ
  shards : Fin kNumShards → Shard

namespace CircuitBreaker

def create (config : CircuitConfig) (hash : String → ℕ) : CircuitBreaker :=
  ⟨config, hash, fun _ => .empty⟩

variable (b : CircuitBreaker) (model : String) (access check : Int)

def perShardCap : ℕ := (max 1 b.config.maxCircuits + kNumShards - 1) / kNumShards

def shardFor : Fin kNumShards := ⟨b.hash model % kNumShards, Nat.mod_lt _ (by decide)⟩

/-- the circuit of the model in its shard, and what becomes of it; an answer is handed on -/
def withCircuit {α : Type} (change : ModelCircuit → α × ModelCircuit) : α × CircuitBreaker :=
  let i := b.shardFor model
  let found := (b.shards i).circuitFor b.config b.perShardCap model access
  let changed := change found.1.circuit
  (changed.1, { b with shards := Function.update b.shards i (found.2.write found.1 changed.2) })

def allowRequest : Bool × CircuitBreaker :=
  b.withCircuit model access (fun c => (c.effective b.config check).letThrough b.config)

def recordSuccess : CircuitBreaker :=
  (b.withCircuit model access (fun c => ((), c.succeed))).2

def recordFailure : CircuitBreaker :=
  (b.withCircuit model access (fun c => ((), c.fail b.config check))).2

end CircuitBreaker

inductive BreakerCall where
  | allowRequest (model : String) (access check : Int)
  | recordSuccess (model : String) (access : Int)
  | recordFailure (model : String) (access check : Int)

def CircuitBreaker.call (b : CircuitBreaker) : BreakerCall → CircuitBreaker
  | .allowRequest model access check => (b.allowRequest model access check).2
  | .recordSuccess model access => b.recordSuccess model access
  | .recordFailure model access check => b.recordFailure model access check

end AegisGate
