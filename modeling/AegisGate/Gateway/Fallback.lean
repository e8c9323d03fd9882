import AegisGate.Core.ErrorCodes
import AegisGate.Core.Types

/-!
# Calling a model, with its fallbacks

`FallbackManager::executeWithFallback`.  A connector answers anything, and differently each time: its
answer and that of the circuit breaker may depend on all that was called before, which is kept as a
list of invocations.

* `Backend`  the circuit breaker, the registry and the connectors;
* `executeWithFallback`  the primary model and its fallbacks, in order;
* `Callable`  some candidate can be called; then one is, and otherwise none is.
-/

namespace AegisGate

open List ErrorCode

inductive Invocation where
  | connector (model : String)
  | tool (toolId : String)
  | node (nodeId : String)
  deriving DecidableEq, Repr

inductive UpstreamFailure where
  | noHealthyKeys (what : String)
  | upstreamStatus (status : Int) (what : String)
  | circuitBreakerOpen (what : String)
  | other (what : String)
  deriving DecidableEq, Repr

def UpstreamFailure.what : UpstreamFailure → String
  | noHealthyKeys w => w
  | upstreamStatus _ w => w
  | circuitBreakerOpen w => w
  | other w => w

structure Backend where
  allowRequest : List Invocation → String → Bool
  known : String → Bool
  complete : List Invocation → String → List Message → Except UpstreamFailure String
  chains : List (String × List String)

structure Tried where
  lastError : String := ""
  anyAttempt : Bool := false
  allNoKeys : Bool := true
  anyCircuitOpen : Bool := false
  lastUpstreamStatus : Option Int := none

def Tried.record (t : Tried) (e : UpstreamFailure) : Tried where
  lastError := e.what
  anyAttempt := true
  allNoKeys := t.allNoKeys && (match e with
    | .noHealthyKeys _ => true
    | _ => false)
  anyCircuitOpen := t.anyCircuitOpen
  lastUpstreamStatus := match e with
    | .upstreamStatus status _ => some status
    | _ => t.lastUpstreamStatus

def Tried.failure (t : Tried) (primaryModel : String) : UpstreamFailure :=
  if t.anyAttempt && t.allNoKeys then
    .noHealthyKeys (noHealthyKeys.toAegisCode ++ ": "
      ++ noHealthyKeys.toDefaultMessage ++ ". Last error: " ++ t.lastError)
  else
    match t.lastUpstreamStatus with
    | some status =>
      .upstreamStatus status (upstreamError.toAegisCode ++ ": upstream returned "
        ++ toString status ++ ". Last error: " ++ t.lastError)
    | none =>
      if !t.anyAttempt && t.anyCircuitOpen then
        .circuitBreakerOpen (circuitBreakerOpen.toAegisCode ++ ": "
          ++ circuitBreakerOpen.toDefaultMessage ++ " for " ++ primaryModel)
      else
        .other (upstreamError.toAegisCode ++ ": "
          ++ upstreamError.toDefaultMessage ++ ". Last error: " ++ t.lastError)

namespace Backend

variable (b : Backend) (messages : List Message) (primaryModel : String)

def candidates : List String := primaryModel :: (b.chains.lookup primaryModel).getD []

/-- the loop over the candidates, after the invocations `h` -/
def tryCandidates : List String → Tried → List Invocation →
    List Invocation × Except UpstreamFailure String
  | [], t, h => (h, .error (t.failure primaryModel))
  | model :: rest, t, h =>
    if b.allowRequest h model = false then
      tryCandidates rest { t with anyCircuitOpen := true } h
    else if b.known model = false then tryCandidates rest t h
    else
      match b.complete h model messages with
      | .ok content => (h ++ [.connector model], .ok content)
      | .error e => tryCandidates rest (t.record e) (h ++ [.connector model])

def executeWithFallback (h : List Invocation) : List Invocation × Except UpstreamFailure String :=
  tryCandidates b messages primaryModel (b.candidates primaryModel) {} h

/-- a candidate the breaker lets through and the registry knows -/
def Callable (h : List Invocation) : Prop :=
  ∃ model ∈ b.candidates primaryModel, b.allowRequest h model ∧ b.known model

section
variable {b messages primaryModel} {h : List Invocation} {ms : List String}

lemma tryCandidates_extends (ms : List String) (t : Tried) (h : List Invocation) :
    h <+: (tryCandidates b messages primaryModel ms t h).1 := by
  induction ms generalizing t h with
  | nil => exact prefix_refl h
  | cons model rest ih =>
    rw [tryCandidates]
    split
    · exact ih _ h
    split
    · exact ih _ h
    split
    · exact prefix_append h _
    · exact (prefix_append h _).trans (ih _ _)

lemma tryCandidates_of_none
    (hms : ∀ model ∈ ms, ¬ (b.allowRequest h model ∧ b.known model)) (t : Tried) :
    ∃ e, tryCandidates b messages primaryModel ms t h = (h, .error e) := by
  induction ms generalizing t with
  | nil => exact ⟨_, rfl⟩
  | cons model rest ih =>
    have hrest := fun m hm => hms m (mem_cons_of_mem _ hm)
    have hmodel := hms model mem_cons_self
    rw [tryCandidates]
    split
    · exact ih hrest _
    next hallow =>
    split
    · exact ih hrest _
    next hknown =>
    exact absurd ⟨eq_true_of_ne_false hallow, eq_true_of_ne_false hknown⟩ hmodel

lemma tryCandidates_of_some {model : String} (hmem : model ∈ ms)
    (hm : b.allowRequest h model ∧ b.known model) (t : Tried) :
    (tryCandidates b messages primaryModel ms t h).1 ≠ h := by
  have hgrows : ∀ (m : String) (h' : List Invocation), h ++ [.connector m] <+: h' → h' ≠ h := by
    intro m h' hpre heq
    have hlen := hpre.length_le
    rw [heq, length_append, length_singleton] at hlen
    omega
  induction ms generalizing t with
  | nil => cases hmem
  | cons m rest ih =>
    rw [tryCandidates]
    split
    · next hallow =>
      have hne : model ≠ m := by
        rintro rfl
        rw [hm.1] at hallow
        cases hallow
      exact ih ((mem_cons.1 hmem).resolve_left hne) _
    split
    · next hknown =>
      have hne : model ≠ m := by
        rintro rfl
        rw [hm.2] at hknown
        cases hknown
      exact ih ((mem_cons.1 hmem).resolve_left hne) _
    split
    · exact hgrows m _ (prefix_refl _)
    · exact hgrows m _ (tryCandidates_extends _ _ _)

lemma executeWithFallback_extends (h : List Invocation) :
    h <+: (executeWithFallback b messages primaryModel h).1 := tryCandidates_extends _ _ _

end

end Backend

end AegisGate
