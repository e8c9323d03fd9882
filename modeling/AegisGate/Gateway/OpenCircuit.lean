import AegisGate.Gateway.BreakerHistory

/-!
# How long an open circuit stays open

A failure has opened the circuit of a model.  Outcomes of requests that were admitted before then
still come in, in any order.

* `lastFailure t l`  the time of the last failure in `l`, `t` when there is none;
* `failuresSince l`  the failures in `l` after its last success;
* `Opened cfg l`  the circuit is still open, or open again, after the calls `l`.

A failure keeps an open circuit open.  A success closes it, whichever request it is of: until the
timeout is over the circuit refuses exactly when no success came in, or failures opened it again
(`open_circuit_refuses_iff`).
-/

namespace AegisGate

open List CircuitBreaker BreakerCall ModelCircuit Run

namespace BreakerCall

def lastFailure (t : Int) (l : List BreakerCall) : Int :=
  l.foldl (fun t c => match c with
    | .recordFailure _ _ check => check
    | _ => t) t

def failuresSince (l : List BreakerCall) : ℕ :=
  l.foldl (fun n c => match c with
    | .allowRequest _ _ _ => n
    | .recordSuccess _ _ => 0
    | .recordFailure _ _ _ => n + 1) 0

variable (cfg : CircuitConfig)

/-- no success came in, or as many failures as it takes came in after the last one -/
def Opened (l : List BreakerCall) : Prop :=
  (∀ model access, .recordSuccess model access ∉ l) ∨
    0 < failuresSince l ∧ cfg.failureThreshold ≤ failuresSince l

/-- every request in `l` comes before the timeout since the last failure is over -/
def Waiting (t : Int) (l : List BreakerCall) : Prop :=
  ∀ p model access check, p ++ [.allowRequest model access check] <+: l →
    check - lastFailure t p < nanoseconds cfg.resetTimeout

lemma lastFailure_snoc (t : Int) (l : List BreakerCall) (c : BreakerCall) :
    lastFailure t (l ++ [c]) = lastFailure (lastFailure t l) [c] := foldl_append

lemma failuresSince_snoc (l : List BreakerCall) (c : BreakerCall) :
    failuresSince (l ++ [c]) = match c with
      | .allowRequest _ _ _ => failuresSince l
      | .recordSuccess _ _ => 0
      | .recordFailure _ _ _ => failuresSince l + 1 := by
  unfold failuresSince
  rw [foldl_append]
  cases c <;> rfl

lemma Waiting.left {cfg : CircuitConfig} {t : Int} {l l' : List BreakerCall}
    (h : Waiting cfg t (l ++ l')) : Waiting cfg t l :=
  fun p model access check hp => h p model access check (hp.trans (prefix_append l l'))

lemma Waiting.nil (t : Int) : Waiting cfg t [] := by
  intro p model access check hp
  exact absurd (prefix_nil.1 hp) (by simp)

lemma Waiting.snoc {cfg : CircuitConfig} {t : Int} {l : List BreakerCall} (h : Waiting cfg t l)
    {c : BreakerCall} (hc : ∀ model access check, c = .allowRequest model access check →
      check - lastFailure t l < nanoseconds cfg.resetTimeout) : Waiting cfg t (l ++ [c]) := by
  intro p model access check hp
  rcases prefix_concat_iff.1 hp with e | hp
  · obtain ⟨rfl, e'⟩ := append_inj' e rfl
    exact hc model access check (List.cons.inj e').1.symm
  · exact h p model access check hp

end BreakerCall

open BreakerCall

/-! ## one circuit -/

section
variable {cfg : CircuitConfig} {c : ModelCircuit} {check : Int}

lemma ModelCircuit.effective_of_lt (h : check - c.lastFailure < nanoseconds cfg.resetTimeout) :
    c.effective cfg check = c := by
  unfold effective
  rw [if_neg]
  rintro ⟨-, hle⟩
  omega

lemma ModelCircuit.letThrough_settled (h : c.state ≠ .halfOpen) :
    c.letThrough cfg = (decide (c.state = .closed), c) := by
  unfold letThrough
  cases hs : c.state with
  | closed | «open» => rfl
  | halfOpen => exact absurd hs h

lemma ModelCircuit.fail_eq (c : ModelCircuit) :
    c.fail cfg check =
      { c with
        state := if c.state = .halfOpen ∨ cfg.failureThreshold ≤ c.failureCount + 1 then .open
          else c.state
        failureCount := c.failureCount + 1
        lastFailure := check } := by
  simp only [fail]
  by_cases hhalf : c.state = .halfOpen
  · rw [if_pos hhalf, if_pos (.inl hhalf)]
  · by_cases hle : cfg.failureThreshold ≤ c.failureCount + 1
    · rw [if_neg hhalf, if_pos hle, if_pos (.inr hle)]
    · rw [if_neg hhalf, if_neg hle, if_neg (not_or.2 ⟨hhalf, hle⟩)]

end

/-- what is known of a circuit that was opened at `t`, after the calls `l` -/
structure SinceOpened (cfg : CircuitConfig) (t : Int) (l : List BreakerCall) (c : ModelCircuit) :
    Prop where
  time : c.lastFailure = lastFailure t l
  settled : c.state ≠ .halfOpen
  opened : c.state = .open ↔ Opened cfg l
  count : (∃ model access, .recordSuccess model access ∈ l) → c.failureCount = failuresSince l

namespace SinceOpened

variable {cfg : CircuitConfig} {t : Int} {l : List BreakerCall} {c : ModelCircuit}

section
variable (h : SinceOpened cfg t l c)
include h

variable (model : String)

lemma allowRequest (access check : Int)
    (hlt : check - lastFailure t l < nanoseconds cfg.resetTimeout) :
    SinceOpened cfg t (l ++ [.allowRequest model access check])
      (change cfg c (.allowRequest model access check)) := by
  have hsame : change cfg c (.allowRequest model access check) = c := by
    show ((c.effective cfg check).letThrough cfg).2 = c
    rw [effective_of_lt (by rw [h.time]; exact hlt), letThrough_settled h.settled]
  rw [hsame]
  refine ⟨?_, h.settled, ?_, ?_⟩
  · rw [lastFailure_snoc, h.time]
    rfl
  · rw [h.opened]
    simp [Opened, failuresSince_snoc]
  · rw [failuresSince_snoc]
    simpa using h.count

lemma recordSuccess (access : Int) : SinceOpened cfg t (l ++ [.recordSuccess model access])
      (change cfg c (.recordSuccess model access)) := by
  refine ⟨?_, nofun, ⟨nofun, ?_⟩, ?_⟩
  · rw [lastFailure_snoc, ← h.time]
    rfl
  · rintro (hnone | hmany)
    · exact absurd (by simp) (hnone model access)
    · simp [failuresSince_snoc] at hmany
  · intro _
    rw [failuresSince_snoc]
    rfl

lemma recordFailure (access check : Int) :
    SinceOpened cfg t (l ++ [.recordFailure model access check])
      (change cfg c (.recordFailure model access check)) := by
  have hstate : (c.fail cfg check).state =
      if cfg.failureThreshold ≤ c.failureCount + 1 then .open else c.state := by
    simp only [c.fail_eq, h.settled, false_or]
  refine ⟨?_, ?_, ?_, ?_⟩
  · rw [lastFailure_snoc]
    show (c.fail cfg check).lastFailure = check
    rw [c.fail_eq]
  · show (c.fail cfg check).state ≠ .halfOpen
    rw [hstate]
    split
    · nofun
    · exact h.settled
  · show (c.fail cfg check).state = .open ↔ _
    rw [hstate]
    by_cases hsucc : ∃ model access, .recordSuccess model access ∈ l
    · -- the count started anew with the last success
      have hcount := h.count hsucc
      have hnot : ¬ ∀ m a, BreakerCall.recordSuccess m a ∉ l ++ [.recordFailure model access check] := by
        obtain ⟨m, a, hm⟩ := hsucc
        exact fun hall => hall m a (mem_append_left _ hm)
      have hold := h.opened
      unfold Opened at hold ⊢
      rw [failuresSince_snoc]
      have hnot' : ¬ ∀ m a, BreakerCall.recordSuccess m a ∉ l := by
        obtain ⟨m, a, hm⟩ := hsucc
        exact fun hall => hall m a hm
      simp only [hnot, hnot', false_or] at hold ⊢
      split
      · next hle => exact iff_of_true rfl ⟨Nat.succ_pos _, by push_cast; omega⟩
      · next hlt =>
        rw [hold]
        constructor
        all_goals
          rintro ⟨-, hle⟩
          omega
    · have hnone : ∀ m a, BreakerCall.recordSuccess m a ∉ l := fun m a hm => hsucc ⟨m, a, hm⟩
      have hopen : c.state = .open := h.opened.2 (.inl hnone)
      rw [hopen, ite_self]
      refine iff_of_true rfl (.inl fun m a hm => ?_)
      rcases mem_append.1 hm with hm | hm
      · exact hnone m a hm
      · simp at hm
  · rintro ⟨m, a, hm⟩
    rw [failuresSince_snoc]
    show (c.fail cfg check).failureCount = _
    have hm' : BreakerCall.recordSuccess m a ∈ l := by simpa using hm
    rw [c.fail_eq, h.count ⟨m, a, hm'⟩]
    rfl

end

end SinceOpened

/-- run lemma: as long as the requests come before the timeout is over -/
lemma sinceOpened_exec {cfg : CircuitConfig} {t : Int} {c : ModelCircuit} (hopen : c.state = .open)
    (ht : c.lastFailure = t) (l : List BreakerCall) (hwait : Waiting cfg t l) :
    SinceOpened cfg t l (exec (change cfg) c l) := by
  induction l using List.reverseRecOn with
  | nil =>
    refine ⟨ht, ?_, iff_of_true hopen (.inl nofun), ?_⟩
    · show c.state ≠ .halfOpen
      rw [hopen]
      nofun
    · rintro ⟨m, a, hm⟩
      cases hm
  | append_singleton l a ih =>
    have h := ih hwait.left
    rw [exec_append, exec_cons, exec_nil]
    cases a with
    | allowRequest model access check =>
      exact h.allowRequest model access check (hwait l model access check (prefix_refl _))
    | recordSuccess model access => exact h.recordSuccess model access
    | recordFailure model access check => exact h.recordFailure model access check

/-! ## the breaker -/

/-- once a failure has opened the circuit, until the timeout since the last failure is over, a
request is refused exactly when no success came in or enough failures came after it -/
theorem open_circuit_refuses_iff {cfg : CircuitConfig} (hash : String → ℕ)
    (httl : cfg.circuitIdleTtl = 0) (model : String) (before after : List BreakerCall)
    (failedAccess failed access check : Int) (hroom : Along call Roomy (.create cfg hash)
      ((before ++ [.recordFailure model failedAccess failed]) ++
        (after ++ [.allowRequest model access check]))) (hopen : ((exec call (.create cfg hash)
      (before ++ [.recordFailure model failedAccess failed])).circuitOf model).state = .open)
    (hwait : Waiting cfg failed (own model (after ++ [.allowRequest model access check]))) :
    ((exec call (.create cfg hash)
        ((before ++ [.recordFailure model failedAccess failed]) ++ after)).allowRequest model access
          check).1 = false ↔ Opened cfg (own model after) := by
  obtain ⟨hbefore, hrest⟩ := (along_append _ _ _).1 hroom
  obtain ⟨hafter, hlast⟩ := (along_append _ _ _).1 hrest
  obtain ⟨hconfig, hcircuit⟩ := circuitOf_exec httl model _ _ rfl hbefore
  obtain ⟨hconfig', hcircuit'⟩ := circuitOf_exec httl model _ _ hconfig hafter
  have hown : own model (before ++ [.recordFailure model failedAccess failed]) =
      own model before ++ [.recordFailure model failedAccess failed] := by
    simp [own, BreakerCall.model]
  have hown' : own model (after ++ [.allowRequest model access check]) =
      own model after ++ [.allowRequest model access check] := by
    simp [own, BreakerCall.model]
  have htime : ((exec call (.create cfg hash)
      (before ++ [.recordFailure model failedAccess failed])).circuitOf model).lastFailure = failed := by
    rw [hcircuit, hown]
    rw [exec_append]
    show (fail cfg failed _).lastFailure = failed
    rw [fail_eq]
  rw [hown'] at hwait
  have hsince := sinceOpened_exec hopen htime (own model after) hwait.left
  rw [← hcircuit', ← exec_append] at hsince
  have hearly := hwait _ model access check (prefix_refl _)
  rw [← exec_append] at hlast hconfig'
  rw [allowRequest_answer (by rw [hconfig']; exact httl) hlast.1, hconfig',
    effective_of_lt (by rw [hsince.time]; exact hearly),
    letThrough_settled hsince.settled, ← hsince.opened]
  have hsettled := hsince.settled
  cases hs : ((exec call (.create cfg hash)
    ((before ++ [.recordFailure model failedAccess failed]) ++ after)).circuitOf model).state with
  | closed | «open» => simp
  | halfOpen => exact absurd hs hsettled

def strict : CircuitConfig := { failureThreshold := 1 }

def twoRequests : List BreakerCall :=
  [.allowRequest "m" 0 0, .allowRequest "m" 1000000000 1000000000] ++
    [.recordFailure "m" 2000000000 2000000000]

lemma twoRequests_opened : ((exec call (.create strict fun _ => 0)
    twoRequests).circuitOf "m").state = .open := by
  decide +kernel

lemma waiting_fifth_second (l : List BreakerCall) (h : lastFailure 2000000000 l = 2000000000)
    (hl : Waiting strict 2000000000 l) :
    Waiting strict 2000000000 (l ++ [.allowRequest "m" 4000000000 4000000000]) := by
  refine hl.snoc fun model access check e => ?_
  cases e
  rw [h]
  decide

theorem refused_after_failure :
    ((exec call (.create strict fun _ => 0) (twoRequests ++ [])).allowRequest "m"
      4000000000 4000000000).1 = false := by
  refine (open_circuit_refuses_iff (fun _ => 0) rfl "m" _ [] 2000000000 2000000000 4000000000
    4000000000 ?_ twoRequests_opened (waiting_fifth_second [] rfl (Waiting.nil _ _))).2
    (.inl nofun)
  exact along_roomy_create rfl _ "m" (by decide)

/-- the other request succeeds a second after the failure, and a third one is let through at once -/
theorem late_success_closes :
    Along call Roomy (.create strict fun _ => 0)
        (twoRequests ++ ([.recordSuccess "m" 3000000000] ++ [.allowRequest "m" 4000000000 4000000000]))
      ∧ ((exec call (.create strict fun _ => 0) twoRequests).circuitOf "m").state = .open
      ∧ Waiting strict 2000000000 (own "m"
          ([.recordSuccess "m" 3000000000] ++ [.allowRequest "m" 4000000000 4000000000]))
      ∧ ((exec call (.create strict fun _ => 0)
          (twoRequests ++ [.recordSuccess "m" 3000000000])).allowRequest "m" 4000000000
            4000000000).1 := by
  refine ⟨along_roomy_create rfl _ "m" (by decide), twoRequests_opened, ?_, by decide +kernel⟩
  refine waiting_fifth_second [.recordSuccess "m" 3000000000] rfl ?_
  exact (Waiting.nil strict 2000000000).snoc nofun

end AegisGate
