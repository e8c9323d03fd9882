import AegisGate.Gateway.CircuitBreaker
import AegisGate.Lib.Proc

/-!
# The circuit breaker of a cluster

The circuit-breaker functions of `RedisStateStore`.  The circuit of a model is a hash in Redis; a
function is a program over Redis commands, each of which is atomic.  Commands reach Redis.  When a key
expires is not part of its fields: see `Server` in `HalfOpenCap`.

* `Command`, `exec`  the commands that the functions send, and what Redis does;
* `circuitFailureLua`  the script that records a failure, one command;
* `computeCircuitState`  the state that the fields stand for;
* `cbGetState`, `cbAllowRequest`, `cbRecordSuccess`, `cbRecordFailure`.

The clock of the node is in nanoseconds and is read in whole milliseconds.
-/

namespace AegisGate.Cluster

open Function Proc

inductive CircuitField where
  | state
  | failureCount
  | halfOpenCalls
  | lastFailureMs
  deriving DecidableEq, Repr

/-- the fields of a hash; a key without fields is not there -/
abbrev CircuitHash := CircuitField → Option Int

abbrev Redis := String → CircuitHash

inductive Command where
  | hget (key : String) (field : CircuitField)
  | hset (key : String) (field : CircuitField) (value : Int)
  | hincrby (key : String) (field : CircuitField) (increment : Int)
  | del (key : String)
  | expire (key : String) (seconds : Int)
  | evalFailure (key : String) (threshold nowMs ttl : Int)
  | nowMs
  deriving DecidableEq, Repr

/-- `nowMs` is answered by the clock of the node -/
abbrev Command.Reply : Command → Type
  | .hget _ _ => Option Int
  | .hset _ _ _ => Unit
  | .hincrby _ _ _ => Int
  | .del _ => Unit
  | .expire _ _ => Unit
  | .evalFailure _ _ _ _ => Int
  | .nowMs => Int

def kNamespacePrefix : String := "aegisgate:"

def kCircuitPrefix : String := "aegisgate:cb:"

def circuitKey (model : String) : String := kNamespacePrefix ++ (kCircuitPrefix ++ model)

/-- `duration_cast` from nanoseconds, towards zero -/
def milliseconds (clock : Int) : Int := clock.tdiv 1000000

def CircuitHash.incr (h : CircuitHash) (field : CircuitField) (increment : Int) : CircuitHash :=
  update h field (some ((h field).getD 0 + increment))

def circuitFailureLua (threshold nowMs : Int) (h : CircuitHash) : Int × CircuitHash :=
  let count := (h .failureCount).getD 0 + 1
  let h := h.incr .failureCount 1
  let state := (h .state).getD 0
  let h :=
    if state = 2 then update h .state (some 1)
    else if state = 0 ∧ threshold ≤ count then update h .state (some 1)
    else h
  (count, update h .lastFailureMs (some nowMs))

lemma circuitFailureLua_hash (threshold nowMs : Int) (h : CircuitHash) :
    (circuitFailureLua threshold nowMs h).2 = fun
      | .state =>
        if (h .state).getD 0 = 2 ∨ (h .state).getD 0 = 0 ∧ threshold ≤ (h .failureCount).getD 0 + 1
        then some 1 else h .state
      | .failureCount => some ((h .failureCount).getD 0 + 1)
      | .halfOpenCalls => h .halfOpenCalls
      | .lastFailureMs => some nowMs := by
  have hsame : h.incr .failureCount 1 .state = h .state := rfl
  simp only [circuitFailureLua, hsame]
  funext field
  by_cases h2 : (h .state).getD 0 = 2
  · rw [if_pos h2, if_pos (.inl h2)]
    cases field <;> rfl
  · by_cases h0 : (h .state).getD 0 = 0 ∧ threshold ≤ (h .failureCount).getD 0 + 1
    · rw [if_neg h2, if_pos h0, if_pos (.inr h0)]
      cases field <;> rfl
    · rw [if_neg h2, if_neg h0, if_neg (not_or.2 ⟨h2, h0⟩)]
      cases field <;> rfl

/-- `clock` is what the node that sends the command reads -/
def exec (clock : Int) : (c : Command) → Redis → c.Reply × Redis
  | .hget key field, s => (s key field, s)
  | .hset key field value, s =>
    ((), update s key (update (s key) field (some value)))
  | .hincrby key field increment, s =>
    ((s key field).getD 0 + increment, update s key ((s key).incr field increment))
  | .del key, s => ((), update s key (fun _ => none))
  | .expire _ _, s => ((), s)
  | .evalFailure key threshold nowMs _, s =>
    ((circuitFailureLua threshold nowMs (s key)).1,
      update s key (circuitFailureLua threshold nowMs (s key)).2)
  | .nowMs, s => (milliseconds clock, s)

abbrev Program := Proc Command Command.Reply

def hgetInt (key : String) (field : CircuitField) : Program (Option Int) :=
  op (Command.hget key field)

def send (c : Command) : Program Unit := do
  let _ ← op c
  pure ()

def readMs : Program Int := op Command.nowMs

def computeCircuitState (state failureCount lastFailureMs nowMs failureThreshold resetTimeoutS : Int) :
    CircuitState :=
  if state = 1 then
    if resetTimeoutS ≤ (nowMs - lastFailureMs).tdiv 1000 then .halfOpen else .open
  else if state = 2 then .halfOpen
  else if failureThreshold ≤ failureCount then
    if resetTimeoutS ≤ (nowMs - lastFailureMs).tdiv 1000 then .halfOpen else .open
  else .closed

section
variable (model : String) (failureThreshold resetTimeoutS halfOpenMax : Int)

def cbGetState : Program CircuitState := do
  match ← hgetInt (circuitKey model) .state with
  | none => pure .closed
  | some state =>
    let count ← hgetInt (circuitKey model) .failureCount
    let last ← hgetInt (circuitKey model) .lastFailureMs
    let now ← readMs
    pure (computeCircuitState state (count.getD 0) (last.getD 0) now failureThreshold resetTimeoutS)

def cbAllowRequest : Program Bool := do
  match ← cbGetState model failureThreshold resetTimeoutS with
  | .closed => pure true
  | .open => pure false
  | .halfOpen =>
    let calls ← hgetInt (circuitKey model) .halfOpenCalls
    if calls.getD 0 < halfOpenMax then
      send (.hset (circuitKey model) .state 2)
      send (.hincrby (circuitKey model) .halfOpenCalls 1)
      send (.expire (circuitKey model) 3600)
      pure true
    else pure false

def cbRecordSuccess : Program Unit := send (.del (circuitKey model))

def cbRecordFailure : Program Unit := do
  let now ← readMs
  send (.evalFailure (circuitKey model) failureThreshold now 3600)

end

/-! ## a call on its own -/

def CircuitHash.stateAt (h : CircuitHash) (failureThreshold resetTimeoutS clock : Int) : CircuitState :=
  match h .state with
  | none => .closed
  | some state =>
    computeCircuitState state ((h .failureCount).getD 0) ((h .lastFailureMs).getD 0)
      (milliseconds clock) failureThreshold resetTimeoutS

def CircuitHash.probe (h : CircuitHash) : CircuitHash :=
  CircuitHash.incr (update h .state (some 2)) .halfOpenCalls 1

section
variable (model : String) (failureThreshold resetTimeoutS halfOpenMax clock : Int) (s : Redis)

lemma run_cbGetState :
    run (exec clock) (cbGetState model failureThreshold resetTimeoutS) s =
      ((s (circuitKey model)).stateAt failureThreshold resetTimeoutS clock, s) := by
  unfold cbGetState CircuitHash.stateAt
  show run _ (match s (circuitKey model) .state with | none => _ | some state => _) s = _
  cases s (circuitKey model) .state with
  | none | some state => rfl

lemma run_cbAllowRequest :
    run (exec clock) (cbAllowRequest model failureThreshold resetTimeoutS halfOpenMax) s =
      match (s (circuitKey model)).stateAt failureThreshold resetTimeoutS clock with
      | .closed => (true, s)
      | .open => (false, s)
      | .halfOpen =>
        if (s (circuitKey model) .halfOpenCalls).getD 0 < halfOpenMax then
          (true, update s (circuitKey model) (s (circuitKey model)).probe)
        else (false, s) := by
  unfold cbAllowRequest
  rw [run_bind, run_cbGetState]
  cases (s (circuitKey model)).stateAt failureThreshold resetTimeoutS clock with
  | closed | «open» => rfl
  | halfOpen =>
    show run _ (if (s (circuitKey model) .halfOpenCalls).getD 0 < halfOpenMax then _ else _) s
      = _
    split
    · simp [send, exec, CircuitHash.probe]
    · rfl

end

end AegisGate.Cluster
