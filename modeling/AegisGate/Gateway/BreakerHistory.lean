import AegisGate.Gateway.CircuitBreaker
import AegisGate.Lib.Run

/-!
# Histories of breaker calls, model by model

A history of calls on any models, of which each changes the circuit of its own model.

* `circuitOf b model`  the circuit of a model, a new one when the breaker has none;
* `Roomy b c`  the call evicts no circuit;
* `change cfg c`  what the call does to the circuit of its model;
* `own model l`  the calls of `l` on the model.

Without an idle time and without evictions the circuit of a model is that of its own calls
(`circuitOf_exec`).
-/

namespace AegisGate

open CircuitBreaker Function Table Shard

namespace BreakerCall

def model : BreakerCall → String
  | .allowRequest model _ _ => model
  | .recordSuccess model _ => model
  | .recordFailure model _ _ => model

def access : BreakerCall → Int
  | .allowRequest _ access _ => access
  | .recordSuccess _ access => access
  | .recordFailure _ access _ => access

def change (cfg : CircuitConfig) (c : ModelCircuit) : BreakerCall → ModelCircuit
  | .allowRequest _ _ check => ((c.effective cfg check).letThrough cfg).2
  | .recordSuccess _ _ => c.succeed
  | .recordFailure _ _ check => c.fail cfg check

def own (model : String) (l : List BreakerCall) : List BreakerCall :=
  l.filter (·.model = model)

end BreakerCall

/-! ## one shard -/

namespace Shard

variable {cfg : CircuitConfig} {cap : ℕ} {s : Shard} {model : String}

def circuitOf (s : Shard) (model : String) : ModelCircuit :=
  ((s.circuits.find model).map CircuitEntry.circuit).getD {}

/-- the circuit is there, or there is room for it -/
def Roomy (cap : ℕ) (s : Shard) (model : String) : Prop :=
  (s.circuits.find model).isSome ∨ s.circuits.size < cap

lemma evict_of_lt (h : s.circuits.size < cap) (fuel : ℕ) : evict cap fuel s = s := by
  cases fuel with
  | zero => rfl
  | succ fuel => rw [evict, if_neg (by omega)]

lemma circuitFor_spec (httl : cfg.circuitIdleTtl = 0) (h : Roomy cap s model) (now : Int) :
    (s.circuitFor cfg cap model now).1.circuit = s.circuitOf model ∧
      (s.circuitFor cfg cap model now).1.model = model ∧ ∀ m, m ≠ model →
        (s.circuitFor cfg cap model now).2.circuits.find m = s.circuits.find m := by
  unfold circuitFor circuitOf
  cases hf : s.circuits.find model with
  | some entry =>
    have hm : entry.model = model := key_of_find hf
    simp only [httl, lt_irrefl, false_and, if_false]
    refine ⟨rfl, hm, fun m hne => find_put_ne ?_⟩
    rw [hm]
    exact Ne.symm hne
  | none =>
    have hroom : s.circuits.size < cap := h.resolve_left (by simp [hf])
    unfold insert
    rw [evict_of_lt hroom]
    exact ⟨rfl, rfl, fun m hne => find_put_ne (Ne.symm hne)⟩

lemma circuitOf_write (s : Shard) (entry : CircuitEntry) (c : ModelCircuit) (m : String) :
    (s.write entry c).circuitOf m = if entry.model = m then c else s.circuitOf m := by
  unfold circuitOf write
  rw [find_put]
  split <;> rfl

end Shard

/-! ## the breaker -/

namespace CircuitBreaker

variable {b : CircuitBreaker} {model : String}

def circuitOf (b : CircuitBreaker) (model : String) : ModelCircuit :=
  (b.shards (b.shardFor model)).circuitOf model

def Roomy (b : CircuitBreaker) (c : BreakerCall) : Prop :=
  (b.shards (b.shardFor c.model)).Roomy b.perShardCap c.model

section
variable {α : Type} (httl : b.config.circuitIdleTtl = 0)
  (h : (b.shards (b.shardFor model)).Roomy b.perShardCap model) (access : Int)
  (change : ModelCircuit → α × ModelCircuit)
include httl h

lemma withCircuit_answer :
    (b.withCircuit model access change).1 = (change (b.circuitOf model)).1 := by
  show (change ((b.shards (b.shardFor model)).circuitFor b.config b.perShardCap model
    access).1.circuit).1 = _
  rw [(circuitFor_spec httl h access).1]
  rfl

lemma withCircuit_circuitOf (m : String) :
    (b.withCircuit model access change).2.circuitOf m =
      if model = m then (change (b.circuitOf model)).2 else b.circuitOf m := by
  obtain ⟨hcircuit, hmodel, hother⟩ := circuitFor_spec httl h access
  show (update b.shards (b.shardFor model) _ (b.shardFor m)).circuitOf m = _
  by_cases hm : model = m
  · subst hm
    rw [update_self, circuitOf_write, hmodel, if_pos rfl, if_pos rfl, hcircuit]
    rfl
  · rw [if_neg hm]
    by_cases hi : b.shardFor m = b.shardFor model
    · rw [hi, update_self, circuitOf_write, hmodel, if_neg hm]
      unfold circuitOf Shard.circuitOf
      rw [hother m (Ne.symm hm), hi]
    · rw [update_of_ne hi]
      rfl

end

lemma call_eq (b : CircuitBreaker) (c : BreakerCall) :
    b.call c =
      (b.withCircuit c.model c.access (fun circuit => ((), c.change b.config circuit))).2 := by
  cases c <;> rfl

lemma config_call (b : CircuitBreaker) (c : BreakerCall) : (b.call c).config = b.config := by
  cases c <;> rfl

lemma circuitOf_call (httl : b.config.circuitIdleTtl = 0) {c : BreakerCall} (h : b.Roomy c)
    (m : String) : (b.call c).circuitOf m =
      if c.model = m then c.change b.config (b.circuitOf m) else b.circuitOf m := by
  rw [call_eq, withCircuit_circuitOf httl h]
  split
  · next e => rw [e]
  · rfl

lemma allowRequest_answer (httl : b.config.circuitIdleTtl = 0) {access check : Int}
    (h : b.Roomy (.allowRequest model access check)) : (b.allowRequest model access check).1 =
      (((b.circuitOf model).effective b.config check).letThrough b.config).1 :=
  withCircuit_answer httl h access _

variable {cfg : CircuitConfig}

/-- the circuit of a model after a history is that of its own calls -/
theorem circuitOf_exec (httl : cfg.circuitIdleTtl = 0) (model : String)
    (l : List BreakerCall) : ∀ b : CircuitBreaker, b.config = cfg → Run.Along call Roomy b l →
      (Run.exec call b l).config = cfg ∧ (Run.exec call b l).circuitOf model =
          Run.exec (BreakerCall.change cfg) (b.circuitOf model) (BreakerCall.own model l) := by
  induction l with
  | nil => intro b hb _; exact ⟨hb, rfl⟩
  | cons c l ih =>
    intro b hb hroom
    obtain ⟨hconfig, hcircuit⟩ := ih (b.call c) ((b.config_call c).trans hb) hroom.2
    refine ⟨hconfig, ?_⟩
    rw [Run.exec_cons, hcircuit, circuitOf_call (by rw [hb]; exact httl) hroom.1, hb]
    unfold BreakerCall.own
    by_cases hm : c.model = model <;> simp [hm]

/-! ## one model alone -/

lemma perShardCap_pos (b : CircuitBreaker) : 0 < b.perShardCap := by
  unfold perShardCap kNumShards
  omega

lemma roomy_of_alone {cap : ℕ} (hcap : 0 < cap) {s : Shard}
    (h : ∀ m, m ≠ model → s.circuits.find m = none) : s.Roomy cap model := by
  cases hf : s.circuits.find model with
  | some entry => exact .inl (by simp [hf])
  | none =>
    refine .inr ?_
    have hrows : s.circuits.rows = [] := by
      refine List.eq_nil_iff_forall_not_mem.2 fun e he => ?_
      have hfound : s.circuits.find e.model = some e := find_eq_some_iff.2 ⟨he, rfl⟩
      by_cases hm : e.model = model
      · rw [hm, hf] at hfound
        cases hfound
      · rw [h e.model hm] at hfound
        cases hfound
    rw [size, hrows]
    exact hcap

structure Alone (cfg : CircuitConfig) (model : String) (b : CircuitBreaker) : Prop where
  config : b.config = cfg
  none : ∀ i m, m ≠ model → (b.shards i).circuits.find m = none

lemma alone_create (cfg : CircuitConfig) (hash : String → ℕ) (model : String) :
    Alone cfg model (create cfg hash) := ⟨rfl, fun _ _ _ => rfl⟩

lemma Alone.call (httl : cfg.circuitIdleTtl = 0) (h : Alone cfg model b)
    {c : BreakerCall} (hc : c.model = model) : b.Roomy c ∧ Alone cfg model (b.call c) := by
  subst hc
  have hroom : b.Roomy c := roomy_of_alone b.perShardCap_pos (h.none _)
  have httl' : b.config.circuitIdleTtl = 0 := by rw [h.config]; exact httl
  obtain ⟨-, hmodel, hother⟩ := circuitFor_spec httl' hroom c.access
  refine ⟨hroom, (b.config_call c).trans h.config, fun i m hm => ?_⟩
  rw [call_eq]
  show ((update b.shards (b.shardFor c.model) _ i).circuits.find m) = Option.none
  by_cases hi : i = b.shardFor c.model
  · subst hi
    rw [update_self, write, find_put_ne, hother m hm, h.none _ m hm]
    rw [hmodel]
    exact Ne.symm hm
  · rw [update_of_ne hi, h.none i m hm]

/-- calls on one model never evict a circuit -/
lemma along_roomy_create (httl : cfg.circuitIdleTtl = 0)
    (hash : String → ℕ) (model : String) {l : List BreakerCall} (hl : ∀ c ∈ l, c.model = model) :
    Run.Along call Roomy (create cfg hash) l := by
  refine Run.along_of_inv (I := Alone cfg model) (A := fun c => c.model = model) ?_ l _
    (alone_create cfg hash model) hl
  intro b c h hc
  exact h.call httl hc

/-- the calls on other models never change an answer -/
theorem allowRequest_own (httl : cfg.circuitIdleTtl = 0) (hash : String → ℕ)
    (model : String) (access check : Int) (l : List BreakerCall)
    (hroom : Run.Along call Roomy (create cfg hash) (l ++ [.allowRequest model access check])) :
    ((Run.exec call (create cfg hash) l).allowRequest model access check).1 =
      ((Run.exec call (create cfg hash) (BreakerCall.own model l)).allowRequest model access check).1 := by
  have halone : Run.Along call Roomy (create cfg hash)
      (BreakerCall.own model l ++ [.allowRequest model access check]) := by
    refine along_roomy_create httl hash model (List.forall_mem_append.2
      ⟨fun c hc => ?_, List.forall_mem_singleton.2 rfl⟩)
    exact of_decide_eq_true (List.mem_filter.1 hc).2
  obtain ⟨hl, hlast, -⟩ := (Run.along_append _ _ _).1 hroom
  obtain ⟨hl', hlast', -⟩ := (Run.along_append _ _ _).1 halone
  obtain ⟨hcfg, hcircuit⟩ := circuitOf_exec httl model l _ rfl hl
  obtain ⟨hcfg', hcircuit'⟩ := circuitOf_exec httl model _ _ rfl hl'
  rw [allowRequest_answer (by rw [hcfg, httl]) hlast,
    allowRequest_answer (by rw [hcfg', httl]) hlast', hcfg, hcfg', hcircuit, hcircuit']
  simp [BreakerCall.own]

theorem failure_of_other_model :
    ((Run.exec call (create {} fun _ => 0) [.recordFailure "m" 0 0]).allowRequest "n" 1 1).1 =
      ((Run.exec call (create {} fun _ => 0) []).allowRequest "n" 1 1).1 :=
  @allowRequest_own {} rfl (fun _ => 0) "n" 1 1 [.recordFailure "m" 0 0]
    ⟨.inr (by decide), .inr (by decide), trivial⟩

end CircuitBreaker

end AegisGate
