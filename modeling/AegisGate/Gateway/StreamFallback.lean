import AegisGate.Gateway.Fallback
import AegisGate.Gateway.Router

/-!
# Streaming from a model, with its fallbacks

`FallbackManager::streamWithFallback` and `tryStreamModel`, next to `executeWithFallback`.  A
connector streams some deltas and then ends, well or with an error.  The next candidate is tried only
while no delta has been passed on.

* `Upstream`  how the circuit breaker and the connectors behave;
* `FallbackManager`  the registry and the chains, which do not change;
* `streamWithFallback`  the primary model and its fallbacks, in order;
* `Contacts h h' m`  the model `m` is called between the histories `h` and `h'`.

Only candidates that have a connector are called, and each of them can be the one that answers
(`executeWithFallback_servesOnly`).
-/

namespace AegisGate

open List Backend

structure StreamDelta where
  content : String := ""
  toolCallsDelta : Json := .null
  finishReason : String := ""

/-- a `GatewayError` with its `internal_detail` -/
structure StreamError where
  error : GatewayError
  internalDetail : String := ""

structure Upstream where
  allowRequest : List Invocation → String → Bool
  complete : List Invocation → String → List Message → Except UpstreamFailure String
  /-- the token counts of an answer of `complete` -/
  usage : List Invocation → String → List Message → TokenUsage
  streamComplete : List Invocation → String → List Message →
    List StreamDelta × Except StreamError TokenUsage

structure FallbackManager where
  registry : ConnectorRegistry
  chains : List (String × List String) := []

namespace FallbackManager

def backend (f : FallbackManager) (u : Upstream) : Backend where
  allowRequest := u.allowRequest
  known := fun model => (f.registry.findByModel model).isSome
  complete := u.complete
  chains := f.chains

def getChain (f : FallbackManager) (model : String) : List String := (f.chains.lookup model).getD []

/-! ## streaming -/

/-- `chunks_sent` is left out: a connector that has passed on a delta is the last one called -/
structure StreamFallbackState where
  anyAttempt : Bool := false
  anyCircuitOpen : Bool := false
  lastErr : StreamError := ⟨makeError .upstreamError, "All models in fallback chain failed"⟩

/-- the error when the candidates are used up -/
def StreamFallbackState.exhausted (st : StreamFallbackState) : StreamError :=
  if !st.anyAttempt && st.anyCircuitOpen then
    ⟨makeError .circuitBreakerOpen, "All fallback candidates skipped (circuit breaker open)"⟩
  else st.lastErr

/-- what was called, what was passed on to `onDelta`, and whether `onDone` or `onError` comes -/
structure StreamRun where
  invocations : List Invocation
  deltas : List StreamDelta
  ending : Except StreamError TokenUsage

section
variable (f : FallbackManager) (u : Upstream) (messages : List Message)

/-- the loop over the candidates, continued from the error callback of a connector -/
def tryStreamModel : List String → StreamFallbackState → List Invocation → StreamRun
  | [], st, h => ⟨h, [], .error st.exhausted⟩
  | model :: rest, st, h =>
    if u.allowRequest h model = false then
      tryStreamModel rest { st with anyCircuitOpen := true } h
    else if (f.registry.findByModel model).isNone then tryStreamModel rest st h
    else
      match u.streamComplete h model messages with
      | (deltas, .ok usage) => ⟨h ++ [.connector model], deltas, .ok usage⟩
      | (deltas, .error err) =>
        if deltas.isEmpty = false then ⟨h ++ [.connector model], deltas, .error err⟩
        else
          tryStreamModel rest { st with anyAttempt := true, lastErr := err }
            (h ++ [.connector model])

def streamWithFallback (primaryModel : String) (h : List Invocation) : StreamRun :=
  tryStreamModel f u messages (primaryModel :: f.getChain primaryModel) {} h

def executeWithFallback (primaryModel : String) (h : List Invocation) :
    List Invocation × Except UpstreamFailure String :=
  (f.backend u).executeWithFallback messages primaryModel h

end

/-! ## the models that are called -/

/-- from `h` to `h'` only models of `ms` that have a connector are called -/
def Calls (f : FallbackManager) (ms : List String) (h h' : List Invocation) : Prop :=
  ∃ new, h' = h ++ new ∧ ∀ i ∈ new, ∃ m ∈ ms, (f.registry.findByModel m).isSome ∧ i = .connector m

section
variable {f : FallbackManager} {ms : List String} {h h' : List Invocation} {model : String}

lemma Calls.refl (f : FallbackManager) (ms : List String) (h : List Invocation) :
    f.Calls ms h h := ⟨[], (append_nil h).symm, nofun⟩

lemma Calls.cons (hc : f.Calls ms h h') : f.Calls (model :: ms) h h' := by
  obtain ⟨new, e, hnew⟩ := hc
  refine ⟨new, e, fun i hi => ?_⟩
  obtain ⟨m, hm, hfound⟩ := hnew i hi
  exact ⟨m, mem_cons_of_mem _ hm, hfound⟩

lemma Calls.call (hmodel : (f.registry.findByModel model).isSome)
    (hc : f.Calls ms (h ++ [.connector model]) h') : f.Calls (model :: ms) h h' := by
  obtain ⟨new, e, hnew⟩ := hc
  refine ⟨.connector model :: new, by rw [e, append_assoc]; rfl, fun i hi => ?_⟩
  rcases mem_cons.1 hi with rfl | hi
  · exact ⟨model, mem_cons_self, hmodel, rfl⟩
  · obtain ⟨m, hm, hfound⟩ := hnew i hi
    exact ⟨m, mem_cons_of_mem _ hm, hfound⟩

/-- the last call is that of a model of `ms` that has a connector -/
def Answered (f : FallbackManager) (ms : List String) (h' : List Invocation) : Prop :=
  ∃ before, ∃ m ∈ ms, (f.registry.findByModel m).isSome ∧ h' = before ++ [.connector m]

lemma Answered.cons (ha : f.Answered ms h') : f.Answered (model :: ms) h' := by
  obtain ⟨before, m, hm, hfound⟩ := ha
  exact ⟨before, m, mem_cons_of_mem _ hm, hfound⟩

variable (u : Upstream) (messages : List Message)

lemma tryCandidates_calls (primaryModel : String) (ms : List String) :
    ∀ t h, f.Calls ms h (tryCandidates (f.backend u) messages primaryModel ms t h).1 := by
  induction ms with
  | nil => intro t h; exact Calls.refl f [] h
  | cons model ms ih =>
    intro t h
    rw [tryCandidates]
    split
    · exact (ih _ h).cons
    split
    · exact (ih _ h).cons
    next hknown =>
    have hmodel : (f.registry.findByModel model).isSome := eq_true_of_ne_false hknown
    split
    · exact Calls.call hmodel (Calls.refl f ms _)
    · exact Calls.call hmodel (ih _ _)

lemma tryStreamModel_calls (ms : List String) :
    ∀ st h, f.Calls ms h (f.tryStreamModel u messages ms st h).invocations := by
  induction ms with
  | nil => intro st h; exact Calls.refl f [] h
  | cons model ms ih =>
    intro st h
    rw [tryStreamModel]
    split
    · exact (ih _ h).cons
    split
    · exact (ih _ h).cons
    next hknown =>
    have hmodel : (f.registry.findByModel model).isSome := by
      simpa [Option.isSome_iff_ne_none] using hknown
    split
    · exact Calls.call hmodel (Calls.refl f ms _)
    split
    · exact Calls.call hmodel (Calls.refl f ms _)
    · exact Calls.call hmodel (ih _ _)

lemma tryCandidates_ok (primaryModel : String) (ms : List String) :
    ∀ t h {content}, (tryCandidates (f.backend u) messages primaryModel ms t h).2 = .ok content →
        f.Answered ms (tryCandidates (f.backend u) messages primaryModel ms t h).1 := by
  induction ms with
  | nil => intro t h content hok; cases hok
  | cons model ms ih =>
    intro t h content
    rw [tryCandidates]
    split
    · exact fun hok => (ih _ h hok).cons
    split
    · exact fun hok => (ih _ h hok).cons
    next hknown =>
    split
    · exact fun _ => ⟨h, model, mem_cons_self, eq_true_of_ne_false hknown, rfl⟩
    · exact fun hok => (ih _ _ hok).cons

lemma tryStreamModel_ok (ms : List String) :
    ∀ st h {usage}, (f.tryStreamModel u messages ms st h).ending = .ok usage →
      f.Answered ms (f.tryStreamModel u messages ms st h).invocations := by
  induction ms with
  | nil => intro st h usage hok; cases hok
  | cons model ms ih =>
    intro st h usage
    rw [tryStreamModel]
    split
    · exact fun hok => (ih _ h hok).cons
    split
    · exact fun hok => (ih _ h hok).cons
    next hknown =>
    have hmodel : (f.registry.findByModel model).isSome := by
      simpa [Option.isSome_iff_ne_none] using hknown
    split
    · exact fun _ => ⟨h, model, mem_cons_self, hmodel, rfl⟩
    split
    · exact nofun
    · exact fun hok => (ih _ _ hok).cons

end

def servesOnly (served : String) : Upstream where
  allowRequest := fun _ _ => true
  complete := fun _ model _ => if model = served then .ok "" else .error (.other "")
  usage := fun _ _ _ => {}
  streamComplete := fun _ model _ =>
    ([], if model = served then .ok {} else .error ⟨makeError .upstreamError, ""⟩)

lemma tryCandidates_servesOnly {f : FallbackManager} {served : String} {ms : List String}
    (hmem : served ∈ ms) (hknown : (f.registry.findByModel served).isSome)
    (messages : List Message) (primaryModel : String) :
    ∀ t h, ∃ before, tryCandidates (f.backend (servesOnly served)) messages primaryModel
      ms t h = (h ++ before ++ [.connector served], .ok "") := by
  induction ms with
  | nil => cases hmem
  | cons model ms ih =>
    intro t h
    have hallow : (f.backend (servesOnly served)).allowRequest h model ≠ false := by
      intro e
      cases e
    rw [tryCandidates, if_neg hallow]
    by_cases hm : model = served
    · subst hm
      have hfound : (f.backend (servesOnly model)).known model ≠ false := by
        show (f.registry.findByModel model).isSome ≠ false
        rw [hknown]
        decide
      have hok : (f.backend (servesOnly model)).complete h model messages = .ok "" := if_pos rfl
      rw [if_neg hfound, hok]
      exact ⟨[], by rw [append_nil]⟩
    · have hrest : served ∈ ms := (mem_cons.1 hmem).resolve_left (Ne.symm hm)
      split
      · exact ih hrest t h
      · have herr : (f.backend (servesOnly served)).complete h model messages =
            .error (.other "") := if_neg hm
        rw [herr]
        obtain ⟨before, e⟩ := ih hrest (t.record (.other "")) (h ++ [.connector model])
        exact ⟨.connector model :: before, e.trans (by simp)⟩

/-! ## all behaviours -/

section
variable {f : FallbackManager} {primaryModel model : String} {h : List Invocation} {u : Upstream}
  {messages : List Message} {ms : List String}

def Contacts (h h' : List Invocation) (model : String) : Prop :=
  Invocation.connector model ∈ h'.drop h.length

instance (h h' : List Invocation) (model : String) : Decidable (Contacts h h' model) :=
  inferInstanceAs (Decidable (_ ∈ _))

lemma Calls.contacts {h' : List Invocation} (hc : f.Calls ms h h') (hm : Contacts h h' model) :
    model ∈ ms ∧ (f.registry.findByModel model).isSome := by
  obtain ⟨new, rfl, hnew⟩ := hc
  rw [Contacts, drop_left] at hm
  obtain ⟨m, hmem, hfound, e⟩ := hnew _ hm
  cases e
  exact ⟨hmem, hfound⟩

lemma Answered.last {before : List Invocation}
    (ha : f.Answered ms (before ++ [.connector model])) :
    model ∈ ms ∧ (f.registry.findByModel model).isSome := by
  obtain ⟨before', m, hm, hfound, e⟩ := ha
  have e' := (append_inj' e rfl).2
  cases e'
  exact ⟨hm, hfound⟩

theorem executeWithFallback_servesOnly {served : String}
    (hmem : served ∈ primaryModel :: f.getChain primaryModel)
    (hknown : (f.registry.findByModel served).isSome) (messages : List Message)
    (h : List Invocation) :
    ∃ before, f.executeWithFallback (servesOnly served) messages primaryModel h =
      (h ++ before ++ [.connector served], .ok "") :=
  tryCandidates_servesOnly hmem hknown messages primaryModel {} h

end

end FallbackManager

end AegisGate
