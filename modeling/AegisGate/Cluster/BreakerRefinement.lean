import AegisGate.Cluster.RedisBreaker
import AegisGate.Gateway.OpenCircuit

/-!
# The breaker in Redis against the breaker in memory

The same calls on one model, one after the other, go to `CircuitBreaker` and to `RedisStateStore`.
Both read the same clock.

* `Compared`  the two breakers side by side, with the number of probes since the last success;
* `Mirrors`  what the hash of a circuit says of the circuit in memory;
* `Agree`  the two give one answer, and an open circuit whose timeout is over is probed;
* `ProbeLeft`  at that request some probe is left, and whole milliseconds tell the end of the
  timeout.

Redis counts the probes since the last success, memory those since the circuit became half-open, so
that a circuit that fails its probes is in the end not probed any more in Redis.  The two agree in a
run exactly when that never matters (`redis_refines_local_iff`).
-/

namespace AegisGate.Cluster

open Function CircuitBreaker

section
variable (cfg : CircuitConfig)

/-! ## one circuit -/

variable (c : ModelCircuit)

def TimeoutOver (check : Int) : Prop :=
  nanoseconds cfg.resetTimeout ≤ check - c.lastFailure

/-- as the difference of two clock readings in milliseconds tells -/
def TimeoutOverMs (check : Int) : Prop :=
  cfg.resetTimeout ≤ (milliseconds check - milliseconds c.lastFailure).tdiv 1000

instance (c : ModelCircuit) (check : Int) : Decidable (TimeoutOver cfg c check) :=
  inferInstanceAs (Decidable (_ ≤ _))

instance (c : ModelCircuit) (check : Int) : Decidable (TimeoutOverMs cfg c check) :=
  inferInstanceAs (Decidable (_ ≤ _))

/-- a probe is left whenever the circuit in memory is to be probed, and while one is left
milliseconds end the timeout neither early nor late -/
structure ProbeLeft (c : ModelCircuit) (probes : ℕ) (check : Int) : Prop where
  whenOver : c.state = .open → TimeoutOver cfg c check → probes < cfg.halfOpenMaxCalls
  inTime : c.state = .open → probes < cfg.halfOpenMaxCalls →
    (TimeoutOver cfg c check ↔ TimeoutOverMs cfg c check)
  whenHalfOpen : c.state = .halfOpen → c.halfOpenCalls < cfg.halfOpenMaxCalls →
    probes < cfg.halfOpenMaxCalls

structure Mirrors (c : ModelCircuit) (h : CircuitHash) (probes : ℕ) : Prop where
  count : (h .failureCount).getD 0 = c.failureCount
  calls : (h .halfOpenCalls).getD 0 = probes
  closed : c.state = .closed → h .state = none
  opened : c.state = .open →
    h .state = some 1 ∧ h .lastFailureMs = some (milliseconds c.lastFailure)
  halfOpen : c.state = .halfOpen → h .state = some 2 ∧ c.halfOpenCalls ≤ probes

/-- the answer of `cbAllowRequest`, and the hash it leaves -/
def letThrough (h : CircuitHash) (check : Int) : Bool × CircuitHash :=
  match h.stateAt cfg.failureThreshold cfg.resetTimeout check with
  | .closed => (true, h)
  | .open => (false, h)
  | .halfOpen =>
    if (h .halfOpenCalls).getD 0 < cfg.halfOpenMaxCalls then (true, h.probe) else (false, h)

/-- the answers to a request are the same, and an open circuit whose timeout is over is probed -/
def SameAnswer (h : CircuitHash) (check : Int) : Prop :=
  (letThrough cfg h check).1 = ((c.effective cfg check).letThrough cfg).1 ∧
    (c.state = .open → TimeoutOver cfg c check → (letThrough cfg h check).1)

def probesAfter (probes : ℕ) (check : Int) : ℕ :=
  if (c.effective cfg check).state = .halfOpen ∧
      (c.effective cfg check).halfOpenCalls < cfg.halfOpenMaxCalls then probes + 1
  else probes

end

section
variable {cfg : CircuitConfig} {c : ModelCircuit} {h : CircuitHash} {probes : ℕ} {check : Int}

lemma Mirrors.stateAt_open (hm : Mirrors c h probes) (hc : c.state = .open) :
    h.stateAt cfg.failureThreshold cfg.resetTimeout check =
      if TimeoutOverMs cfg c check then .halfOpen else .open := by
  obtain ⟨hstate, hlast⟩ := hm.opened hc
  unfold CircuitHash.stateAt
  rw [hstate, hlast]
  show computeCircuitState 1 _ _ _ _ _ = _
  unfold computeCircuitState TimeoutOverMs
  rfl

lemma effective_of_not_open (hc : c.state ≠ .open) : c.effective cfg check = c := by
  unfold ModelCircuit.effective
  rw [if_neg (hc ·.1)]

lemma effective_of_not_over (h : ¬ TimeoutOver cfg c check) : c.effective cfg check = c := by
  unfold ModelCircuit.effective
  rw [if_neg (h ·.2)]

lemma Mirrors.probe (hm : Mirrors c h probes) (calls : Int) (hcalls : calls ≤ probes + 1) :
    Mirrors { c with state := .halfOpen, halfOpenCalls := calls } h.probe (probes + 1) := by
  refine ⟨hm.count, ?_, nofun, nofun, fun _ => ⟨rfl, by push_cast; exact hcalls⟩⟩
  show (h .halfOpenCalls).getD 0 + 1 = _
  rw [hm.calls]
  rfl

/-- a request to a circuit is answered in one way and leaves mirrors, or no probe was left -/
def Decided (cfg : CircuitConfig) (c : ModelCircuit) (h : CircuitHash) (probes : ℕ) (check : Int) :
    Prop :=
  (ProbeLeft cfg c probes check ∧ SameAnswer cfg c h check ∧
      Mirrors ((c.effective cfg check).letThrough cfg).2 (letThrough cfg h check).2
        (probesAfter cfg c probes check)) ∨
    (¬ ProbeLeft cfg c probes check ∧ ¬ SameAnswer cfg c h check)

section
variable (hm : Mirrors c h probes)
include hm

lemma Mirrors.decided_closed (hc : c.state = .closed) : Decided cfg c h probes check := by
  have heff : c.effective cfg check = c := effective_of_not_open (by rw [hc]; nofun)
  have hlocal : c.letThrough cfg = (true, c) := by
    unfold ModelCircuit.letThrough
    rw [hc]
  have hredis : letThrough cfg h check = (true, h) := by
    unfold letThrough CircuitHash.stateAt
    rw [hm.closed hc]
  refine .inl ⟨⟨?_, ?_, ?_⟩, ⟨?_, ?_⟩, ?_⟩
  · intro e; rw [hc] at e; cases e
  · intro e; rw [hc] at e; cases e
  · intro e; rw [hc] at e; cases e
  · rw [heff, hlocal, hredis]
  · intro e; rw [hc] at e; cases e
  · rw [heff, hlocal, hredis, probesAfter, heff, if_neg (by simp [hc])]
    exact hm

lemma Mirrors.decided_open (hc : c.state = .open) : Decided cfg c h probes check := by
  have hhalf : c.state ≠ .halfOpen := by rw [hc]; nofun
  -- Redis lets a probe through when the milliseconds say so and one is left
  have hredis : letThrough cfg h check =
      if TimeoutOverMs cfg c check ∧ (probes : Int) < cfg.halfOpenMaxCalls then (true, h.probe)
      else (false, h) := by
    unfold letThrough
    rw [hm.stateAt_open hc, hm.calls]
    by_cases hms : TimeoutOverMs cfg c check <;> simp [hms]
  by_cases hover : TimeoutOver cfg c check
  · have heff : c.effective cfg check = _ := if_pos ⟨hc, hover⟩
    by_cases hleft : TimeoutOverMs cfg c check ∧ (probes : Int) < cfg.halfOpenMaxCalls
    · have hmax : 0 < cfg.halfOpenMaxCalls := by omega
      have hlocal : (c.effective cfg check).letThrough cfg =
          (true, { c with state := .halfOpen, halfOpenCalls := 0 + 1 }) := by
        rw [heff]
        simp only [ModelCircuit.letThrough]
        rw [if_pos hmax]
      refine .inl ⟨⟨fun _ _ => hleft.2, fun _ _ => iff_of_true hover hleft.1, fun e => absurd e hhalf⟩,
        ⟨?_, ?_⟩, ?_⟩
      · rw [hredis, if_pos hleft, hlocal]
      · intro _ _
        rw [hredis, if_pos hleft]
      · rw [hredis, if_pos hleft, hlocal, probesAfter, heff, if_pos ⟨rfl, hmax⟩]
        exact hm.probe _ (by omega)
    · refine .inr ⟨fun hp => hleft ?_, fun hs => ?_⟩
      · have hlt := hp.whenOver hc hover
        exact ⟨(hp.inTime hc hlt).1 hover, hlt⟩
      · have htrue := hs.2 hc hover
        rw [hredis, if_neg hleft] at htrue
        cases htrue
  · have heff := effective_of_not_over hover
    have hlocal : (c.effective cfg check).letThrough cfg = (false, c) := by
      rw [heff, ModelCircuit.letThrough_settled hhalf, hc]
      rfl
    by_cases hleft : TimeoutOverMs cfg c check ∧ (probes : Int) < cfg.halfOpenMaxCalls
    · refine .inr ⟨fun hp => hover ((hp.inTime hc hleft.2).2 hleft.1), fun hs => ?_⟩
      have hsame := hs.1
      rw [hredis, if_pos hleft, hlocal] at hsame
      cases hsame
    · refine .inl ⟨⟨fun _ ho => absurd ho hover, ?_, fun e => absurd e hhalf⟩, ⟨?_, ?_⟩, ?_⟩
      · intro _ hlt
        exact iff_of_false hover fun hms => hleft ⟨hms, hlt⟩
      · rw [hredis, if_neg hleft, hlocal]
      · intro _ ho
        exact absurd ho hover
      · rw [hredis, if_neg hleft, hlocal, probesAfter, heff, if_neg (hhalf ·.1)]
        exact hm

lemma Mirrors.decided_halfOpen (hc : c.state = .halfOpen) : Decided cfg c h probes check := by
  have hopen : c.state ≠ .open := by rw [hc]; nofun
  have heff : c.effective cfg check = c := effective_of_not_open hopen
  have hredis : letThrough cfg h check =
      if (probes : Int) < cfg.halfOpenMaxCalls then (true, h.probe) else (false, h) := by
    unfold letThrough CircuitHash.stateAt
    rw [(hm.halfOpen hc).1, ← hm.calls]
    rfl
  have hlocal : (c.effective cfg check).letThrough cfg =
      if c.halfOpenCalls < cfg.halfOpenMaxCalls then
        (true, { c with halfOpenCalls := c.halfOpenCalls + 1 })
      else (false, c) := by
    rw [heff]
    unfold ModelCircuit.letThrough
    rw [hc]
  have hle := (hm.halfOpen hc).2
  by_cases hcalls : c.halfOpenCalls < cfg.halfOpenMaxCalls
  · by_cases hleft : (probes : Int) < cfg.halfOpenMaxCalls
    · refine .inl ⟨⟨fun e => absurd e hopen, fun e => absurd e hopen, fun _ _ => hleft⟩,
        ⟨?_, fun e => absurd e hopen⟩, ?_⟩
      · rw [hredis, if_pos hleft, hlocal, if_pos hcalls]
      · rw [hredis, if_pos hleft, hlocal, if_pos hcalls, probesAfter, heff, if_pos ⟨hc, hcalls⟩]
        have hprobed := hm.probe (c.halfOpenCalls + 1) (by omega)
        rwa [← hc] at hprobed
    · refine .inr ⟨fun hp => hleft (hp.whenHalfOpen hc hcalls), fun hs => ?_⟩
      have hsame := hs.1
      rw [hredis, if_neg hleft, hlocal, if_pos hcalls] at hsame
      cases hsame
  · have hleft : ¬ (probes : Int) < cfg.halfOpenMaxCalls := by omega
    refine .inl ⟨⟨fun e => absurd e hopen, fun e => absurd e hopen, fun _ hlt => absurd hlt hcalls⟩,
      ⟨?_, fun e => absurd e hopen⟩, ?_⟩
    · rw [hredis, if_neg hleft, hlocal, if_neg hcalls]
    · rw [hredis, if_neg hleft, hlocal, if_neg hcalls, probesAfter, heff, if_neg (hcalls ·.2)]
      exact hm

lemma Mirrors.decided (cfg : CircuitConfig) (check : Int) : Decided cfg c h probes check := by
  cases hc : c.state with
  | closed => exact hm.decided_closed hc
  | «open» => exact hm.decided_open hc
  | halfOpen => exact hm.decided_halfOpen hc

end

lemma Mirrors.succeed (c : ModelCircuit) : Mirrors c.succeed (fun _ => none) 0 :=
  ⟨rfl, rfl, fun _ => rfl, nofun, nofun⟩

lemma Mirrors.fail (hm : Mirrors c h probes) (cfg : CircuitConfig) (check : Int) :
    Mirrors (c.fail cfg check) (circuitFailureLua cfg.failureThreshold (milliseconds check) h).2
      probes := by
  rw [c.fail_eq, circuitFailureLua_hash, hm.count]
  refine ⟨rfl, hm.calls, ?_, ?_, ?_⟩
  · intro hc
    split at hc
    · cases hc
    · next hstay =>
      -- a closed circuit stays closed, and Redis has no state for it
      rw [hm.closed hc, if_neg]
      rintro (h2 | ⟨-, hle⟩)
      · cases h2
      · exact hstay (.inr hle)
  · intro hc
    refine ⟨?_, rfl⟩
    cases hs : c.state with
    | closed =>
      rw [hs] at hc
      have hle : cfg.failureThreshold ≤ c.failureCount + 1 := by
        by_contra hlt
        simp [hlt] at hc
      rw [hm.closed hs, if_pos (.inr ⟨rfl, hle⟩)]
    | «open» => rw [(hm.opened hs).1, ite_self]
    | halfOpen => rw [(hm.halfOpen hs).1, if_pos (.inl rfl)]
  · intro hc
    split at hc
    · cases hc
    · next hstay => exact absurd (.inl hc) hstay

end

/-! ## the two breakers side by side -/

structure Compared where
  breaker : CircuitBreaker
  redis : Redis
  probes : ℕ

section
variable (cfg : CircuitConfig)

def Compared.start (hash : String → ℕ) : Compared := ⟨.create cfg hash, fun _ _ => none, 0⟩

def redisAllow (s : Redis) (model : String) (check : Int) : Bool × Redis :=
  Proc.run (exec check)
    (cbAllowRequest model cfg.failureThreshold cfg.resetTimeout cfg.halfOpenMaxCalls) s

def redisCall (s : Redis) : BreakerCall → Redis
  | .allowRequest model _ check => (redisAllow cfg s model check).2
  | .recordSuccess model access => (Proc.run (exec access) (cbRecordSuccess model) s).2
  | .recordFailure model _ check =>
    (Proc.run (exec check) (cbRecordFailure model cfg.failureThreshold) s).2

def Compared.step (s : Compared) (c : BreakerCall) : Compared where
  breaker := s.breaker.call c
  redis := redisCall cfg s.redis c
  probes := match c with
    | .allowRequest model _ check => probesAfter cfg (s.breaker.circuitOf model) s.probes check
    | .recordSuccess _ _ => 0
    | .recordFailure _ _ _ => s.probes

/-- both answer a request alike, and let it through when the circuit is open and its timeout over -/
def Agree (s : Compared) : BreakerCall → Prop
  | .allowRequest model access check =>
    (redisAllow cfg s.redis model check).1 = (s.breaker.allowRequest model access check).1 ∧
      ((s.breaker.circuitOf model).state = .open →
        TimeoutOver cfg (s.breaker.circuitOf model) check → (redisAllow cfg s.redis model check).1)
  | _ => True

def Probed (s : Compared) : BreakerCall → Prop
  | .allowRequest model _ check => ProbeLeft cfg (s.breaker.circuitOf model) s.probes check
  | _ => True

lemma redisAllow_eq (s : Redis) (model : String) (check : Int) :
    redisAllow cfg s model check = ((letThrough cfg (s (circuitKey model)) check).1,
        update s (circuitKey model) (letThrough cfg (s (circuitKey model)) check).2) := by
  unfold redisAllow letThrough
  rw [run_cbAllowRequest]
  cases (s (circuitKey model)).stateAt cfg.failureThreshold cfg.resetTimeout check with
  | closed | «open» => simp
  | halfOpen =>
    by_cases h : (s (circuitKey model) .halfOpenCalls).getD 0 < cfg.halfOpenMaxCalls <;> simp [h]

end

/-- the breaker in memory has the circuit of the model only, and Redis mirrors it -/
structure Paired (cfg : CircuitConfig) (model : String) (s : Compared) : Prop where
  alone : s.breaker.Alone cfg model
  mirrors : Mirrors (s.breaker.circuitOf model) (s.redis (circuitKey model)) s.probes

section
variable {cfg : CircuitConfig} {model : String} {s : Compared}

lemma Paired.agree_iff (h : Paired cfg model s) (httl : cfg.circuitIdleTtl = 0) {c : BreakerCall}
    (hc : c.model = model) : Agree cfg s c ↔ Probed cfg s c := by
  cases c with
  | allowRequest m access check =>
    cases hc
    have httl' : s.breaker.config.circuitIdleTtl = 0 := by rw [h.alone.config]; exact httl
    have hanswer := allowRequest_answer httl' (h.alone.call httl rfl).1
    show (_ ∧ _) ↔ _
    rw [hanswer, h.alone.config, redisAllow_eq]
    rcases h.mirrors.decided cfg check with ⟨hleft, hsame, -⟩ | ⟨hleft, hsame⟩
    · exact iff_of_true hsame hleft
    · exact iff_of_false hsame hleft
  | recordSuccess m access | recordFailure m access check => exact Iff.rfl

lemma Paired.step (h : Paired cfg model s) (httl : cfg.circuitIdleTtl = 0) {c : BreakerCall}
    (hc : c.model = model) (hleft : Probed cfg s c) : Paired cfg model (s.step cfg c) := by
  have httl' : s.breaker.config.circuitIdleTtl = 0 := by rw [h.alone.config]; exact httl
  obtain ⟨hroom, halone⟩ := h.alone.call httl hc
  have hcircuit := circuitOf_call httl' hroom model
  rw [if_pos hc, h.alone.config] at hcircuit
  refine ⟨halone, ?_⟩
  show Mirrors ((s.breaker.call c).circuitOf model) _ _
  rw [hcircuit]
  cases c with
  | allowRequest m access check =>
    obtain rfl : m = model := hc
    show Mirrors _ ((redisAllow cfg s.redis _ check).2 _) _
    rw [redisAllow_eq]
    show Mirrors _ (update s.redis _ _ _) _
    rw [update_self]
    rcases h.mirrors.decided cfg check with ⟨-, -, hnext⟩ | ⟨hnot, -⟩
    · exact hnext
    · exact absurd hleft hnot
  | recordSuccess m access =>
    obtain rfl : m = model := hc
    show Mirrors _ (update s.redis _ _ _) 0
    rw [update_self]
    exact Mirrors.succeed _
  | recordFailure m access check =>
    obtain rfl : m = model := hc
    show Mirrors _ (update s.redis _ _ _) s.probes
    rw [update_self]
    exact h.mirrors.fail cfg check

end

/-- along every sequence of calls on one model the two breakers agree exactly when a probe is left
at every request that the one in memory lets through as a probe, and milliseconds tell the end of
the timeout -/
theorem redis_refines_local_iff {cfg : CircuitConfig} (httl : cfg.circuitIdleTtl = 0)
    (hash : String → ℕ) (model : String) (l : List BreakerCall) (hl : ∀ c ∈ l, c.model = model) :
    Run.Along (Compared.step cfg) (Agree cfg) (.start cfg hash) l ↔
      Run.Along (Compared.step cfg) (Probed cfg) (.start cfg hash) l :=
  Run.along_congr (I := Paired cfg model) (A := fun c => c.model = model)
    (fun _ _ hs hc => hs.agree_iff httl hc) (fun _ _ hs hc hleft => hs.step httl hc hleft) l _
    ⟨alone_create cfg hash model, ⟨rfl, rfl, fun _ => rfl, nofun, nofun⟩⟩ hl

def firstProbe : List BreakerCall :=
  [.recordFailure "m" 0 0, .allowRequest "m" 30000000000 30000000000]

/-- the first probe is let through by both -/
theorem firstProbe_agree :
    Run.Along (Compared.step strict) (Agree strict) (.start strict fun _ => 0) firstProbe := by
  refine (redis_refines_local_iff rfl (fun _ => 0) "m" firstProbe (by decide)).2 ⟨trivial, ?_, trivial⟩
  refine ⟨fun _ _ => by decide +kernel, fun _ _ => ?_, fun h => absurd h (by decide +kernel)⟩
  exact iff_of_true (by decide +kernel) (by decide +kernel)

/-- the probe fails, and after another thirty seconds only the breaker in memory probes again -/
theorem failed_probe_is_last :
    let s := Run.exec (Compared.step strict) (.start strict fun _ => 0)
      (firstProbe ++ [.recordFailure "m" 31000000000 31000000000])
    (s.breaker.allowRequest "m" 61000000000 61000000000).1 ∧
      (redisAllow strict s.redis "m" 61000000000).1 = false := by
  decide +kernel

end AegisGate.Cluster
