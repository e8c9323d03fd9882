import AegisGate.Cluster.RedisBreaker
import AegisGate.Lib.Position

/-!
# Probes of several nodes at the same time

Any number of nodes ask `cbAllowRequest` for one model.  A call is a sequence of Redis commands, and
the commands of different calls interleave.  Outcomes come in between, and time in which Redis may
remove the key.

* `ClusterEvent`, `clusterStep`  a call begins or sends its next command, an outcome is recorded;
* `Server`, `serverStep`  the same with the time of Redis, and the time when the key expires;
* `admitted P`  the calls that have returned true;
* `checking P`  the calls between the reading of the probe counter and the return;
* `Stage`, `Progress`  the calls by the point that they have reached, and one hash.

The counter is read in one command and raised in another, so that two calls may both see the last
probe (`two_nodes_probe`), and a key that expires takes the counter with it.  The cap holds while the
key does not expire, when no call reads the counter, and no success is recorded, while another call is
between the two (`half_open_cap`).
-/

namespace AegisGate.Cluster

open List Function Position Nat Int

abbrev Pool := Proc.Pool Redis Command Command.Reply Bool

inductive ClusterEvent where
  | arrive
  | command (i : ℕ) (clock : Int)
  | success
  | failure (clock : Int)

def ClusterEvent.isOutcome : ClusterEvent → Bool
  | .arrive => false
  | .command _ _ => false
  | .success => true
  | .failure _ => true

section
variable (cfg : CircuitConfig) (model : String)

def clusterStep (P : Pool) : ClusterEvent → Pool
  | .arrive =>
    P.step (exec 0) (.spawn
      (cbAllowRequest model cfg.failureThreshold cfg.resetTimeout cfg.halfOpenMaxCalls))
  | .command i clock => P.step (exec clock) (.step i)
  | .success => { P with store := (Proc.run (exec 0) (cbRecordSuccess model) P.store).2 }
  | .failure clock =>
    { P with
      store := (Proc.run (exec clock) (cbRecordFailure model cfg.failureThreshold) P.store).2 }

def emptyPool : Pool := { store := fun _ _ => none }

def returnedTrue : Program Bool → Bool
  | .ret b => b
  | .call _ _ => false

/-- the counter was read and the probe is to be let through -/
def afterRead : Program Bool → Bool
  | .call (.hset _ _ _) _ => true
  | .call (.hincrby _ _ _) _ => true
  | .call (.expire _ _) _ => true
  | _ => false

def admitted (P : Pool) : ℕ := (P.threads.map Proc.Thread.rest).countP returnedTrue

def checking (P : Pool) : ℕ := (P.threads.map Proc.Thread.rest).countP afterRead

/-- the counter is read, or a success recorded, only while no call is between its reading and its
return -/
def Exclusive (P : Pool) : ClusterEvent → Prop
  | .arrive => True
  | .command i _ =>
    (P.pending (.step i)).map Prod.snd = some (.hget (circuitKey model) .halfOpenCalls) →
      checking P = 0
  | .success => checking P = 0
  | .failure _ => True

instance (P : Pool) : (e : ClusterEvent) → Decidable (Exclusive model P e)
  | .arrive => isTrue trivial
  | .command _ _ => inferInstanceAs (Decidable (_ = _ → _ = _))
  | .success => inferInstanceAs (Decidable (_ = _))
  | .failure _ => isTrue trivial

/-! ## the lifetime of the key -/

def CircuitHash.present (h : CircuitHash) : Bool :=
  [CircuitField.state, .failureCount, .halfOpenCalls, .lastFailureMs].any fun field => (h field).isSome

/-- the calls, the clock of Redis in seconds, and when it removes the key of the model -/
structure Server where
  pool : Pool := emptyPool
  time : ℕ := 0
  deadline : Option ℕ := none

inductive ServerEvent where
  | cluster (e : ClusterEvent)
  | wait (seconds : ℕ)

section
variable (s : Server)

/-- what happens to the calls; a key that is due is removed, as by a success -/
def Server.acts : ServerEvent → Option ClusterEvent
  | .cluster e => some e
  | .wait seconds => if s.deadline.any (· ≤ s.time + seconds) then some .success else none

/-- the command that reaches Redis -/
def sent (P : Pool) : ClusterEvent → Option Command
  | .arrive => none
  | .command i _ => (P.pending (.step i)).map Prod.snd
  | .success => some (.del (circuitKey model))
  | .failure clock =>
    some (.evalFailure (circuitKey model) cfg.failureThreshold (milliseconds clock) 3600)

def Server.deadlineAfter : Command → Option ℕ
  | .del _ => none
  | .expire key seconds =>
    if (s.pool.store key).present then some (s.time + seconds.toNat) else s.deadline
  | .evalFailure _ _ _ ttl => some (s.time + ttl.toNat)
  | _ => s.deadline

variable (e : ServerEvent)

def serverStep : Server where
  pool := (s.acts e).elim s.pool (clusterStep cfg model s.pool)
  time := match e with
    | .cluster _ => s.time
    | .wait seconds => s.time + seconds
  deadline := match (s.acts e).bind (sent cfg model s.pool) with
    | some c => s.deadlineAfter c
    | none => s.deadline

/-- `Exclusive`, where a removal counts as a success -/
def ExclusiveAt : Prop := ∀ c ∈ s.acts e, Exclusive model s.pool c

/-- no outcome is recorded, and the key is not removed -/
def Quiet : Prop := ∀ c ∈ s.acts e, c.isOutcome = false

end

instance (s : Server) (e : ServerEvent) : Decidable (ExclusiveAt model s e) :=
  inferInstanceAs (Decidable (∀ c ∈ s.acts e, Exclusive model s.pool c))

instance (s : Server) (e : ServerEvent) : Decidable (Quiet s e) :=
  inferInstanceAs (Decidable (∀ c ∈ s.acts e, c.isOutcome = false))

/-! ## the points of a call -/

def verdict : CircuitState → Program Bool
  | .closed => pure true
  | .open => pure false
  | .halfOpen => do
    let calls ← hgetInt (circuitKey model) .halfOpenCalls
    if calls.getD 0 < cfg.halfOpenMaxCalls then
      send (.hset (circuitKey model) .state 2)
      send (.hincrby (circuitKey model) .halfOpenCalls 1)
      send (.expire (circuitKey model) 3600)
      pure true
    else pure false

inductive Stage where
  | readState
  | readCount (st : Int)
  | readLast (st : Int) (failures : Option Int)
  | readClock (st : Int) (failures failed : Option Int)
  | readCalls
  | mark
  | countUp
  | touch
  | returned (b : Bool)
  deriving DecidableEq

open Stage

namespace Stage

def program : Stage → Program Bool
  | .readState => cbAllowRequest model cfg.failureThreshold cfg.resetTimeout cfg.halfOpenMaxCalls
  | .readCount st => (do
      let failures ← hgetInt (circuitKey model) .failureCount
      let failed ← hgetInt (circuitKey model) .lastFailureMs
      let now ← readMs
      pure (computeCircuitState st (failures.getD 0) (failed.getD 0) now cfg.failureThreshold
        cfg.resetTimeout)) >>= verdict cfg model
  | .readLast st failures => (do
      let failed ← hgetInt (circuitKey model) .lastFailureMs
      let now ← readMs
      pure (computeCircuitState st (failures.getD 0) (failed.getD 0) now cfg.failureThreshold
        cfg.resetTimeout)) >>= verdict cfg model
  | .readClock st failures failed => (do
      let now ← readMs
      pure (computeCircuitState st (failures.getD 0) (failed.getD 0) now cfg.failureThreshold
        cfg.resetTimeout)) >>= verdict cfg model
  | .readCalls => verdict cfg model .halfOpen
  | .mark => do
    send (.hset (circuitKey model) .state 2)
    send (.hincrby (circuitKey model) .halfOpenCalls 1)
    send (.expire (circuitKey model) 3600)
    pure true
  | .countUp => do
    send (.hincrby (circuitKey model) .halfOpenCalls 1)
    send (.expire (circuitKey model) 3600)
    pure true
  | .touch => do
    send (.expire (circuitKey model) 3600)
    pure true
  | .returned b => pure b

def ofVerdict : CircuitState → Stage
  | .closed => .returned true
  | .open => .returned false
  | .halfOpen => .readCalls

def next (now : Int) (h : CircuitHash) : Stage → Stage
  | .readState => match h .state with
    | none => .returned true
    | some st => .readCount st
  | .readCount st => .readLast st (h .failureCount)
  | .readLast st failures => .readClock st failures (h .lastFailureMs)
  | .readClock st failures failed =>
    ofVerdict (computeCircuitState st (failures.getD 0) (failed.getD 0) (milliseconds now)
      cfg.failureThreshold cfg.resetTimeout)
  | .readCalls =>
    if (h .halfOpenCalls).getD 0 < cfg.halfOpenMaxCalls then .mark else .returned false
  | .mark => .countUp
  | .countUp => .touch
  | .touch => .returned true
  | .returned b => .returned b

def effect (h : CircuitHash) : Stage → CircuitHash
  | .mark => update h .state (some 2)
  | .countUp => h.incr .halfOpenCalls 1
  | _ => h

lemma program_step (g : Stage) :
    (∃ b, g = .returned b) ∨ ∃ c k, g.program cfg model = .call c k ∧
      ((c = .hget (circuitKey model) .halfOpenCalls) ↔ g = .readCalls) ∧
      ∀ now s, k (exec now c s).1 = (g.next cfg now (s (circuitKey model))).program cfg model ∧
        (exec now c s).2 = update s (circuitKey model) (g.effect (s (circuitKey model))) := by
  cases g with
  | returned b => exact .inl ⟨b, rfl⟩
  | readState =>
    refine .inr ⟨_, _, rfl, by simp, fun now s => ⟨?_, (update_eq_self _ _).symm⟩⟩
    simp only [exec, next]
    cases s (circuitKey model) .state with
    | none | some st => rfl
  | readCount st | readLast st failures =>
    exact .inr ⟨_, _, rfl, by simp, fun now s => ⟨rfl, (update_eq_self _ _).symm⟩⟩
  | readClock st failures failed =>
    refine .inr ⟨_, _, rfl, by simp, fun now s => ⟨?_, (update_eq_self _ _).symm⟩⟩
    show verdict cfg model (computeCircuitState st (failures.getD 0) (failed.getD 0) (milliseconds now)
      cfg.failureThreshold cfg.resetTimeout) = _
    simp only [next]
    cases computeCircuitState st (failures.getD 0) (failed.getD 0) (milliseconds now)
      cfg.failureThreshold cfg.resetTimeout <;> rfl
  | readCalls =>
    refine .inr ⟨_, _, rfl, by simp, fun now s => ⟨?_, (update_eq_self _ _).symm⟩⟩
    show (if (s (circuitKey model) .halfOpenCalls).getD 0 < cfg.halfOpenMaxCalls then
      (_ : Program Bool) else _) = program cfg model (if _ then _ else _)
    by_cases h : (s (circuitKey model) .halfOpenCalls).getD 0 < cfg.halfOpenMaxCalls
    · rw [if_pos h, if_pos h]
      rfl
    · rw [if_neg h, if_neg h]
      rfl
  | mark | countUp => exact .inr ⟨_, _, rfl, by simp, fun now s => ⟨rfl, rfl⟩⟩
  | touch =>
    exact .inr ⟨_, _, rfl, by simp, fun now s => ⟨rfl, (update_eq_self _ _).symm⟩⟩

end Stage

/-! ## the cluster by its stages -/

structure Progress where
  hash : CircuitHash
  stages : List Stage

open Progress

def Progress.step (C : Progress) : ClusterEvent → Progress
  | .arrive => { C with stages := C.stages ++ [.readState] }
  | .command i now =>
    match C.stages[i]? with
    | some g => ⟨g.effect C.hash, C.stages.set i (g.next cfg now C.hash)⟩
    | none => C
  | .success => { C with hash := fun _ => none }
  | .failure now =>
    { C with hash := (circuitFailureLua cfg.failureThreshold (milliseconds now) C.hash).2 }

structure Simulates (P : Pool) (C : Progress) : Prop where
  hash : P.store (circuitKey model) = C.hash
  rest : P.threads.map Proc.Thread.rest = C.stages.map (program cfg model)

variable {cfg model} {C : Progress} {i : ℕ}

lemma Progress.step_some {g : Stage} (h : C.stages[i]? = some g) (now : Int) :
    C.step cfg (.command i now) = ⟨g.effect C.hash, C.stages.set i (g.next cfg now C.hash)⟩ := by
  simp only [step, h]

lemma Progress.step_none (h : C.stages[i]? = none) (now : Int) :
    C.step cfg (.command i now) = C := by
  simp only [step, h]

lemma Simulates.thread {P : Pool} {g : Stage} (h : Simulates cfg model P C)
    (hg : C.stages[i]? = some g) : ∃ past, P.threads[i]? = some ⟨past, g.program cfg model⟩ := by
  have hi := congrArg (·[i]?) h.rest
  simp only [getElem?_map, hg] at hi
  obtain ⟨⟨past, rest⟩, ht, rfl⟩ := Option.map_eq_some_iff.1 hi
  exact ⟨past, ht⟩

lemma Simulates.step {P : Pool} (h : Simulates cfg model P C) (e : ClusterEvent) :
    Simulates cfg model (clusterStep cfg model P e) (C.step cfg e) := by
  cases e with
  | arrive =>
    refine ⟨h.hash, ?_⟩
    show List.map _ (P.threads ++ [_]) = _
    rw [map_append, h.rest, Progress.step, map_append]
    rfl
  | success =>
    refine ⟨?_, h.rest⟩
    show update P.store _ _ _ = _
    rw [update_self]
    rfl
  | failure now =>
    refine ⟨?_, h.rest⟩
    show update P.store _ _ _ = _
    rw [update_self, Progress.step, ← h.hash]
    rfl
  | command i now =>
    show Simulates cfg model (P.step (exec now) (.step i)) _
    cases hg : C.stages[i]? with
    | none =>
      have hnone : P.threads[i]? = none := by simpa [hg] using congrArg (·[i]?) h.rest
      have hstay : P.step (exec now) (.step i) = P := by
        simp only [Proc.Pool.step, hnone]
      rw [hstay, step_none hg]
      exact h
    | some g =>
      obtain ⟨past, ht⟩ := h.thread hg
      rcases g.program_step cfg model with ⟨b, rfl⟩ | ⟨c, k, hcall, -, hnext⟩
      · -- a call that has returned stays where it is
        have hstay : P.step (exec now) (.step i) = P := by
          simp only [Proc.Pool.step, ht]
          rfl
        have hsame : C.stages.set i (.returned b) = C.stages := by
          obtain ⟨hlt, hget⟩ := List.getElem?_eq_some_iff.1 hg
          rw [← hget]
          exact set_getElem_self hlt
        rw [hstay, step_some hg]
        refine ⟨h.hash, ?_⟩
        rw [h.rest]
        show _ = List.map _ (C.stages.set i (.returned b))
        rw [hsame]
      · rw [hcall] at ht
        obtain ⟨hk, heffect⟩ := hnext now P.store
        rw [Proc.Pool.step_eq ht, step_some hg]
        refine ⟨?_, ?_⟩
        · show (exec now c P.store).2 _ = _
          rw [heffect, update_self, h.hash]
        · rw [map_set, h.rest, map_set, ← h.hash, ← hk]

/-! ## counting the calls at a stage -/

namespace Stage

def afterRead : Stage → Bool
  | .mark => true
  | .countUp => true
  | .touch => true
  | _ => false

def beforeCount : Stage → Bool
  | .mark => true
  | .countUp => true
  | _ => false

def admitted : Stage → Bool
  | .returned b => b
  | _ => false

/-- the call has raised the counter, or returned true -/
def holds : Stage → Bool
  | .touch => true
  | .returned b => b
  | _ => false

/-- a state that the call has read is that of an open or half-open circuit -/
def Sound : Stage → Prop
  | .readCount st => st = 1 ∨ st = 2
  | .readLast st _ => st = 1 ∨ st = 2
  | .readClock st _ _ => st = 1 ∨ st = 2
  | _ => True

lemma holds_le (l : List Stage) : l.countP holds ≤ l.countP admitted + l.countP afterRead := by
  induction l with
  | nil => exact zero_le _
  | cons g l ih =>
    have hg : (if g.holds then 1 else 0) ≤
        (if g.admitted then 1 else 0) + (if g.afterRead then 1 else 0) := by
      cases g with
      | returned b => cases b <;> decide
      | _ => simp [holds, admitted, afterRead]
    rw [countP_cons, countP_cons, countP_cons]
    omega

lemma beforeCount_of_afterRead {g : Stage} (h : g.afterRead = false) : g.beforeCount = false := by
  cases g <;> first | rfl | cases h

lemma beforeCount_le (l : List Stage) : l.countP beforeCount ≤ l.countP afterRead := by
  refine countP_mono_left fun g _ h => ?_
  cases g <;> first | exact h | cases h

end Stage

section
variable {a b : List Stage} {hash : CircuitHash} {g : Stage} {i : ℕ}

lemma next_readClock (cfg : CircuitConfig) {st : Int} (h : st = 1 ∨ st = 2)
    (failures failed : Option Int) (now : Int) (hash : CircuitHash) :
    (readClock st failures failed).next cfg now hash = .returned false ∨
      (readClock st failures failed).next cfg now hash = .readCalls := by
  simp only [Stage.next, computeCircuitState]
  rcases h with rfl | rfl
  · rw [if_pos rfl]
    split
    · exact .inr rfl
    · exact .inl rfl
  · exact .inr rfl

/-- what holds of the stages and the counter when the check of the counter is not interrupted -/
structure Capped (cfg : CircuitConfig) (C : Progress) : Prop where
  field : C.hash .state = none ∨ C.hash .state = some 1 ∨ C.hash .state = some 2
  sound : ∀ g ∈ C.stages, g.Sound
  alone : C.stages.countP Stage.afterRead ≤ 1
  left : 0 < C.stages.countP beforeCount → (C.hash .halfOpenCalls).getD 0 < cfg.halfOpenMaxCalls
  counted : (C.stages.countP holds : Int) ≤
    C.stages.countP Stage.admitted + (C.hash .halfOpenCalls).getD 0
  cap : (C.hash .halfOpenCalls).getD 0 ≤ cfg.halfOpenMaxCalls.toNat

def Progress.Exclusive (C : Progress) : ClusterEvent → Prop
  | .arrive => True
  | .command i _ => C.stages[i]? = some .readCalls → C.stages.countP Stage.afterRead = 0
  | .success => C.stages.countP Stage.afterRead = 0
  | .failure _ => True

variable {C : Progress}

lemma Progress.step_split (cfg : CircuitConfig) (h : C.stages[i]? = some g) (now : Int) :
    ∃ a b, C.stages = a ++ g :: b ∧
      C.step cfg (.command i now) = ⟨g.effect C.hash, a ++ g.next cfg now C.hash :: b⟩ := by
  obtain ⟨a, b, hab, rfl⟩ := split_of_getElem? h
  refine ⟨a, b, hab, ?_⟩
  rw [step_some h, hab, set_split]

lemma Capped.arrive (h : Capped cfg C) : Capped cfg (C.step cfg .arrive) := by
  refine ⟨h.field, ?_, ?_, ?_, ?_, h.cap⟩
  · intro g hg
    rcases mem_append.1 hg with hg | hg
    · exact h.sound g hg
    · rw [mem_singleton.1 hg]
      trivial
  · simpa [step, Stage.afterRead] using h.alone
  · simpa [step, Stage.beforeCount] using h.left
  · simpa [step, Stage.holds, Stage.admitted] using h.counted

lemma Capped.success (h : Capped cfg C) (hex : C.stages.countP Stage.afterRead = 0) :
    Capped cfg (C.step cfg .success) := by
  have hholds := Stage.holds_le C.stages
  have hbefore := Stage.beforeCount_le C.stages
  refine ⟨.inl rfl, h.sound, h.alone, ?_, ?_, ?_⟩
  · intro hpos
    have hpos' : 0 < C.stages.countP Stage.beforeCount := hpos
    omega
  · show (C.stages.countP Stage.holds : Int) ≤ C.stages.countP Stage.admitted + 0
    omega
  · show (0 : Int) ≤ _
    omega

lemma Capped.failure (h : Capped cfg C) (now : Int) : Capped cfg (C.step cfg (.failure now)) := by
  have hhash : (C.step cfg (.failure now)).hash =
      (circuitFailureLua cfg.failureThreshold (milliseconds now) C.hash).2 := rfl
  rw [circuitFailureLua_hash] at hhash
  refine ⟨?_, h.sound, h.alone, ?_, ?_, ?_⟩
  · rw [hhash]
    split
    · exact .inr (.inl rfl)
    · exact h.field
  · rw [hhash]
    exact h.left
  · rw [hhash]
    exact h.counted
  · rw [hhash]
    exact h.cap

lemma Capped.move {hash' : CircuitHash} {g' : Stage} (h : Capped cfg ⟨hash, a ++ g :: b⟩)
    (hfield : hash' .state = none ∨ hash' .state = some 1 ∨ hash' .state = some 2)
    (hcalls : hash' .halfOpenCalls = hash .halfOpenCalls) (hsound : g'.Sound)
    (hread : (if g'.afterRead then 1 else 0) ≤ if g.afterRead then 1 else 0)
    (hbefore : (if g'.beforeCount then 1 else 0) ≤ if g.beforeCount then 1 else 0)
    (hholds : (if g'.holds then 1 else 0) + (if g.admitted then 1 else 0) ≤
      (if g.holds then 1 else 0) + if g'.admitted then 1 else 0) :
    Capped cfg ⟨hash', a ++ g' :: b⟩ := by
  obtain ⟨-, hsound', halone, hleft, hcounted, hcap⟩ := h
  simp only [countP_append, countP_cons] at halone hleft hcounted hsound'
  refine ⟨hfield, forall_mem_replace hsound' hsound, ?_, ?_, ?_, ?_⟩
  · simp only [countP_append, countP_cons]
    omega
  · simp only [countP_append, countP_cons, hcalls]
    intro hpos
    exact hleft (by omega)
  · simp only [countP_append, countP_cons, hcalls]
    omega
  · simp only [hcalls]
    exact hcap

lemma Capped.enter (h : Capped cfg ⟨hash, a ++ .readCalls :: b⟩)
    (hnone : (a ++ .readCalls :: b).countP Stage.afterRead = 0)
    (hlt : (hash .halfOpenCalls).getD 0 < cfg.halfOpenMaxCalls) :
    Capped cfg ⟨hash, a ++ .mark :: b⟩ := by
  obtain ⟨hfield, hsound, -, -, hcounted, hcap⟩ := h
  refine ⟨hfield, forall_mem_replace hsound trivial, ?_, fun _ => hlt, ?_, hcap⟩
  · simp only [countP_append, countP_cons, Stage.afterRead, reduceIte,
      Bool.false_eq_true] at hnone ⊢
    omega
  · simp only [countP_append, countP_cons, Stage.holds, Stage.admitted, reduceIte,
      Bool.false_eq_true] at hcounted ⊢
    exact hcounted

lemma Capped.raise (h : Capped cfg ⟨hash, a ++ .countUp :: b⟩) :
    Capped cfg ⟨hash.incr .halfOpenCalls 1, a ++ .touch :: b⟩ := by
  obtain ⟨hfield, hsound, halone, hleft, hcounted, -⟩ := h
  have hbefore := Stage.beforeCount_le (a ++ b)
  have hcalls : (hash.incr .halfOpenCalls 1) .halfOpenCalls =
      some ((hash .halfOpenCalls).getD 0 + 1) := rfl
  simp only [countP_append, countP_cons, Stage.afterRead, Stage.beforeCount, Stage.holds,
    Stage.admitted, reduceIte, Bool.false_eq_true] at halone hleft hcounted hbefore
  refine ⟨hfield, forall_mem_replace hsound trivial, ?_, ?_, ?_, ?_⟩
  · simp only [countP_append, countP_cons, Stage.afterRead, reduceIte]
    exact halone
  · simp only [countP_append, countP_cons, Stage.beforeCount, reduceIte, Bool.false_eq_true]
    intro hpos
    omega
  · simp only [countP_append, countP_cons, Stage.holds, Stage.admitted, reduceIte,
      Bool.false_eq_true, hcalls, Option.getD_some]
    omega
  · simp only [hcalls, Option.getD_some]
    omega

lemma Capped.command (h : Capped cfg C) {now : Int} (hex : C.Exclusive (.command i now)) :
    Capped cfg (C.step cfg (.command i now)) := by
  cases hg : C.stages[i]? with
  | none =>
    rw [step_none hg]
    exact h
  | some g =>
    obtain ⟨a, b, hab, hstep⟩ := step_split cfg hg now
    obtain ⟨hash, stages⟩ := C
    obtain rfl : stages = a ++ g :: b := hab
    rw [hstep]
    have hsound : g.Sound := h.sound g (by simp)
    have hquiet : ∀ {g' : Stage}, g'.Sound → g'.afterRead = false → g'.holds = false →
        g.afterRead = false → g.admitted = false → Capped cfg ⟨hash, a ++ g' :: b⟩ := by
      intro g' hs hr hh hr' ha
      refine h.move h.field rfl hs ?_ ?_ ?_
      · rw [hr, hr']
      · rw [Stage.beforeCount_of_afterRead hr]
        exact zero_le _
      · rw [hh, ha]
        exact zero_le _
    cases g with
    | readState =>
      simp only [Stage.effect, Stage.next]
      cases hs : hash .state with
      | none => exact h.move h.field rfl trivial (le_refl 0) (le_refl 0) (le_refl 1)
      | some st =>
        have hfield := h.field
        simp only [hs, reduceCtorEq, Option.some.injEq, false_or] at hfield
        exact hquiet hfield rfl rfl rfl rfl
    | readCount st | readLast st failures => exact hquiet hsound rfl rfl rfl rfl
    | readClock st failures failed =>
      rcases next_readClock cfg hsound failures failed now hash with hnext | hnext <;>
      · rw [hnext]
        exact hquiet trivial rfl rfl rfl rfl
    | readCalls =>
      simp only [Stage.effect, Stage.next]
      split
      · next hlt => exact h.enter (hex hg) hlt
      · exact hquiet trivial rfl rfl rfl rfl
    | mark =>
      exact h.move (.inr (.inr rfl)) rfl trivial (le_refl 1) (le_refl 1) (le_refl 0)
    | countUp => exact h.raise
    | touch => exact h.move h.field rfl trivial (zero_le 1) (le_refl 0) (le_succ 1)
    | returned r => exact h

lemma Capped.step (h : Capped cfg C) {e : ClusterEvent} (hex : C.Exclusive e) :
    Capped cfg (C.step cfg e) := by
  cases e with
  | arrive => exact h.arrive
  | command i now => exact h.command hex
  | success => exact h.success hex
  | failure now => exact h.failure now

end

/-! ## until the next outcome -/

/-- no command lowers the counter, or makes a call hold a probe without raising it, in an open or
half-open circuit -/
lemma Stage.holds_next (cfg : CircuitConfig) {g : Stage} (hg : g.Sound) {hash : CircuitHash}
    (hs : hash .state ≠ none) (now : Int) : g.effect hash .state ≠ none ∧
      (hash .halfOpenCalls).getD 0 ≤ (g.effect hash .halfOpenCalls).getD 0 ∧
      ((g.next cfg now hash).holds → g.holds ∨
        (hash .halfOpenCalls).getD 0 + 1 ≤ (g.effect hash .halfOpenCalls).getD 0) := by
  cases g with
  | readState =>
    refine ⟨hs, le_refl _, fun hh => ?_⟩
    cases hst : hash .state with
    | none => exact absurd hst hs
    | some st =>
      simp only [next, hst] at hh
      cases hh
  | readCount st | readLast st failures => exact ⟨hs, le_refl _, nofun⟩
  | readClock st failures failed =>
    refine ⟨hs, le_refl _, fun hh => ?_⟩
    rcases next_readClock cfg hg failures failed now hash with hnext | hnext <;>
    · rw [hnext] at hh
      cases hh
  | readCalls =>
    refine ⟨hs, le_refl _, fun hh => ?_⟩
    simp only [next] at hh
    split at hh <;> cases hh
  | mark => exact ⟨nofun, le_refl _, nofun⟩
  | countUp =>
    have hraised : (effect hash .countUp .halfOpenCalls).getD 0 =
        (hash .halfOpenCalls).getD 0 + 1 := rfl
    exact ⟨hs, by omega, fun _ => .inr (by omega)⟩
  | touch => exact ⟨hs, le_refl _, fun _ => .inl rfl⟩
  | returned r => exact ⟨hs, le_refl _, fun hh => .inl hh⟩

/-- since the window began with `base` admitted calls, the counter covers the new ones -/
structure Within (base : ℕ) (C : Progress) : Prop where
  field : C.hash .state ≠ none
  covered : (C.stages.countP holds : Int) ≤ base + (C.hash .halfOpenCalls).getD 0

lemma Within.step {base : ℕ} (h : Within base C) (hc : Capped cfg C) {e : ClusterEvent}
    (he : e.isOutcome = false) : Within base (C.step cfg e) := by
  cases e with
  | success | failure now => cases he
  | arrive =>
    refine ⟨h.field, ?_⟩
    simpa [Progress.step, Stage.holds] using h.covered
  | command i now =>
    cases hg : C.stages[i]? with
    | none =>
      rw [step_none hg]
      exact h
    | some g =>
      obtain ⟨a, b, hab, hstep⟩ := step_split cfg hg now
      have hsound : g.Sound := hc.sound g (by rw [hab]; simp)
      obtain ⟨hfield, hle, hholds⟩ := Stage.holds_next cfg hsound h.field now
      have hcovered := h.covered
      rw [hab, countP_append, countP_cons] at hcovered
      rw [hstep]
      refine ⟨hfield, ?_⟩
      rw [countP_append, countP_cons]
      by_cases hnew : (g.next cfg now C.hash).holds
      · rw [if_pos hnew]
        rcases hholds hnew with hold | hraised
        · rw [if_pos hold] at hcovered
          push_cast at hcovered ⊢
          omega
        · push_cast at hcovered ⊢
          omega
      · rw [if_neg hnew]
        push_cast at hcovered ⊢
        omega

/-! ## the pool -/

section
variable {P : Pool}

section
variable (h : Simulates cfg model P C)
include h

lemma Simulates.admitted_eq : admitted P = C.stages.countP Stage.admitted := by
  unfold admitted
  rw [h.rest, countP_map]
  congr 1
  funext g
  cases g <;> rfl

lemma Simulates.checking_eq : checking P = C.stages.countP Stage.afterRead := by
  unfold checking
  rw [h.rest, countP_map]
  congr 1
  funext g
  cases g <;> rfl

lemma Simulates.exclusive {e : ClusterEvent} (hex : Exclusive model P e) : C.Exclusive e := by
  cases e with
  | arrive | failure now => trivial
  | success => exact h.checking_eq.symm.trans hex
  | command i now =>
    intro hg
    obtain ⟨past, ht⟩ := h.thread hg
    rcases program_step cfg model .readCalls with ⟨b, hb⟩ | ⟨c, k, hcall, hc, -⟩
    · cases hb
    · have hpending : P.pending (.step i) = some (past, c) := by
        rw [Proc.Pool.pending_iff]
        exact ⟨k, by rw [ht, hcall]⟩
      rw [← h.checking_eq]
      exact hex (by rw [hpending, hc.2 rfl]; rfl)

end

end

section
variable {I : Progress → Prop} {A : ClusterEvent → Prop} {P : Pool}

def Follows (cfg : CircuitConfig) (model : String) (I : Progress → Prop) (P : Pool) : Prop :=
  ∃ C, Simulates cfg model P C ∧ Capped cfg C ∧ I C

lemma Follows.step (hI : ∀ C e, I C → Capped cfg C → A e → I (C.step cfg e)) {e : ClusterEvent}
    (h : Follows cfg model I P) (he : A e) (hex : Exclusive model P e) :
    Follows cfg model I (clusterStep cfg model P e) := by
  obtain ⟨C, hsim, hcap, hC⟩ := h
  exact ⟨C.step cfg e, hsim.step e, hcap.step (hsim.exclusive hex), hI C e hC hcap he⟩

lemma Follows.serve (hI : ∀ C e, I C → Capped cfg C → A e → I (C.step cfg e)) {s : Server}
    {e : ServerEvent} (h : Follows cfg model I s.pool) (he : ∀ c ∈ s.acts e, A c)
    (hex : ExclusiveAt model s e) : Follows cfg model I (serverStep cfg model s e).pool := by
  show Follows cfg model I ((s.acts e).elim s.pool (clusterStep cfg model s.pool))
  cases hacts : s.acts e with
  | none => exact h
  | some c => exact h.step hI (he c hacts) (hex c hacts)

lemma Follows.exec (hI : ∀ C e, I C → Capped cfg C → A e → I (C.step cfg e)) {s : Server}
    {l : List ServerEvent} (h : Follows cfg model I s.pool)
    (hl : Run.Along (serverStep cfg model) (fun s e => ∀ c ∈ s.acts e, A c) s l)
    (hex : Run.Along (serverStep cfg model) (ExclusiveAt model) s l) :
    Follows cfg model I (Run.exec (serverStep cfg model) s l).pool :=
  Run.Along.inv (I := fun s => Follows cfg model I s.pool) (A := fun _ => True)
    (fun _ _ h _ hstep => h.serve hI hstep.1 hstep.2) l s h (fun _ _ => trivial)
    ((Run.along_and l s).2 ⟨hl, hex⟩) l (prefix_refl _)

lemma follows_emptyPool (cfg : CircuitConfig) (model : String) :
    Follows cfg model (fun _ => True) emptyPool :=
  ⟨⟨fun _ => none, []⟩, ⟨rfl, rfl⟩,
    ⟨.inl rfl, nofun, zero_le _, nofun, le_refl _, natCast_nonneg _⟩, trivial⟩

/-- from a half-open state until the next outcome, or until the key expires, at most
`halfOpenMaxCalls` calls return true, in every run in which the check of the counter is not
interrupted -/
theorem half_open_cap (cfg : CircuitConfig) (model : String) (before window : List ServerEvent)
    (clock : Int)
    (hex : Run.Along (serverStep cfg model) (ExclusiveAt model) {} (before ++ window))
    (hhalf : ((Run.exec (serverStep cfg model) {} before).pool.store (circuitKey model)).stateAt
      cfg.failureThreshold cfg.resetTimeout clock = .halfOpen)
    (hwindow : Run.Along (serverStep cfg model) Quiet (Run.exec (serverStep cfg model) {} before)
      window) :
    admitted (Run.exec (serverStep cfg model) {} (before ++ window)).pool ≤
      admitted (Run.exec (serverStep cfg model) {} before).pool + cfg.halfOpenMaxCalls.toNat := by
  obtain ⟨hbefore, hafter⟩ := (Run.along_append _ _ _).1 hex
  obtain ⟨C, hsim, hcap, -⟩ := Follows.exec (A := fun _ => True) (fun _ _ _ _ _ => trivial)
    (follows_emptyPool cfg model) (hbefore.mono fun _ _ _ _ _ => trivial) hbefore
  have hfield : C.hash .state ≠ none := by
    intro hnone
    rw [hsim.hash, CircuitHash.stateAt, hnone] at hhalf
    cases hhalf
  have hstart : Within (admitted (Run.exec (serverStep cfg model) {} before).pool) C :=
    ⟨hfield, by rw [hsim.admitted_eq]; exact hcap.counted⟩
  obtain ⟨C', hsim', hcap', hwithin⟩ := Follows.exec (A := fun e => e.isOutcome = false)
    (fun _ _ hw hc he => hw.step hc he) ⟨C, hsim, hcap, hstart⟩ hwindow hafter
  rw [Run.exec_append, hsim'.admitted_eq]
  have hle : C'.stages.countP Stage.admitted ≤ C'.stages.countP Stage.holds := by
    refine countP_mono_left fun g _ hg => ?_
    cases g <;> first | exact hg | cases hg
  have hcovered := hwithin.covered
  have hbound := hcap'.cap
  omega

end

end

def oneProbe : CircuitConfig := { failureThreshold := 1 }

/-- `n` commands of the call `i`, while its node reads so many seconds -/
def commands (seconds : Int) (i n : ℕ) : List ServerEvent :=
  List.replicate n (.cluster (.command i (seconds * 1000000000)))

/-- after a failure, a call of one node and then a call of another, in the hour before the key expires:
the second is refused -/
theorem two_calls_one_probe :
    admitted (Run.exec (serverStep oneProbe "m") {} ([.cluster (.failure 0), .wait 30] ++
        ([.cluster .arrive, .cluster .arrive] ++ commands 30 0 8 ++ [.wait 3599] ++
          commands 3629 1 5))).pool ≤
      admitted (Run.exec (serverStep oneProbe "m") {} [.cluster (.failure 0), .wait 30]).pool + 1 :=
  half_open_cap oneProbe "m" _ _ 30000000000 (by decide +kernel) (by decide +kernel)
    (by decide +kernel)

/-- two calls read the counter before either raises it, and both return true; a node that asks once
more when the key has expired is admitted again -/
theorem two_nodes_probe :
    let start := Run.exec (serverStep oneProbe "m") {} [.cluster (.failure 0), .wait 30]
    let both := [.cluster .arrive, .cluster .arrive] ++ commands 30 0 5 ++ commands 30 1 5 ++
      commands 30 0 3 ++ commands 30 1 3
    let late := [.cluster .arrive] ++ commands 30 0 8 ++ [.wait 3600, .cluster .arrive] ++
      commands 3630 1 1
    (start.pool.store (circuitKey "m")).stateAt 1 30 30000000000 = .halfOpen ∧
      Run.Along (serverStep oneProbe "m") Quiet start both ∧ admitted start.pool = 0 ∧
      admitted (Run.exec (serverStep oneProbe "m") start both).pool = 2 ∧
      admitted (Run.exec (serverStep oneProbe "m") start late).pool = 2 := by
  decide +kernel

end AegisGate.Cluster
