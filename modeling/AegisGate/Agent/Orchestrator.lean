import AegisGate.Core.Pipeline
import AegisGate.Gateway.Fallback

/-!
# The agent loop

`src/agent/{tool_registry,tool_sandbox,orchestrator}.cpp`.  Each step asks the model, looks for a
tool call in its output, checks it against the registry, runs it in the sandbox and feeds the
result back as the next message.  Without a model the input is taken for the output of the model.

* `validateCall`  an enabled tool of the registry with its required fields;
* `ToolSandbox.execute` the checks of the sandbox, the executor, the bound on its output;
* `parseToolCall`  the first balanced JSON object of a text;
* `Orchestrator.run`  the loop, with the invocations it made;
* `run_invokes_iff`  over a backend, it invokes something exactly when it may take a step and
  the model, or one of its fallbacks, can be called;
* `Truthful`  success and error say whether the loop stopped at an answer.

The clock is a parameter, and so are the parser and the printer of JSON.
-/

namespace AegisGate.Agent

open List

/-! ## the registry -/

structure ToolDefinition where
  id : String
  description : String := ""
  parametersSchema : Json := .null
  enabled : Bool := true

section
variable (tools : List ToolDefinition)

def getTool (id : String) : Option ToolDefinition :=
  tools.find? (·.id = id)

def listTools : List ToolDefinition := tools.filter (·.enabled)

/-- the first required field that is not there; a field that is no string throws -/
def missingField (arguments : Json) : List Json → Except Json.TypeError (Option String)
  | [] => .ok none
  | .str field :: rest =>
    if arguments.contains field then missingField arguments rest else .ok (some field)
  | _ :: _ => .error ⟨302⟩

def validateCall (toolId : String) (arguments : Json) : Except Json.TypeError (Option String) :=
  match getTool tools toolId with
  | none => .ok (some ("Unknown tool: " ++ toolId))
  | some tool =>
    if tool.enabled = false then .ok (some ("Tool is disabled: " ++ toolId))
    else
      match tool.parametersSchema.find? "required" with
      | some (.arr fields) => do
        let missing ← missingField arguments fields
        pure (missing.map ("Missing required field: " ++ ·))
      | _ => .ok none

end

/-! ## the sandbox -/

inductive ToolExecutionStatus where
  | success
  | timeout
  | error
  | rejected
  | rateLimited
  deriving DecidableEq, Repr

structure ToolExecutionResult where
  toolId : String
  status : ToolExecutionStatus := .error
  output : String := ""
  errorMessage : String := ""
  deriving DecidableEq, Repr

structure ToolSandbox where
  registry : List ToolDefinition
  executor : Option (List Invocation → String → Json → Except String String)

def kMaxToolOutputBytes : Nat := 1048576

/-- `resize`; a character the cut goes through is dropped as a whole -/
def resize : Nat → List Char → List Char
  | _, [] => []
  | n, c :: cs => if c.utf8Size ≤ n then c :: resize (n - c.utf8Size) cs else []

/-- `execute`, after the invocations `h` -/
def ToolSandbox.execute (sb : ToolSandbox) (toolId : String) (arguments : Json)
    (h : List Invocation) : List Invocation × Except Json.TypeError ToolExecutionResult :=
  match sb.executor with
  | none => (h, .ok { toolId, errorMessage := "No tool executor configured" })
  | some executor =>
    match getTool sb.registry toolId with
    | none => (h, .ok { toolId, errorMessage := "Unknown tool: " ++ toolId })
    | some tool =>
      if tool.enabled = false then
        (h, .ok { toolId, status := .rejected
                  errorMessage := "Tool is disabled: " ++ toolId })
      else
        match validateCall sb.registry toolId arguments with
        | .error e => (h, .error e)
        | .ok (some error) => (h, .ok { toolId, errorMessage := error })
        | .ok none =>
          match executor h toolId arguments with
          | .ok output =>
            (h ++ [.tool toolId],
              .ok { toolId, status := .success
                    output := String.ofList (resize kMaxToolOutputBytes output.toList) })
          | .error what => (h ++ [.tool toolId], .ok { toolId, errorMessage := what })

/-- a balanced object from its first brace on: depth, inside a string, after a backslash -/
def balanced : Nat → Bool → Bool → List Char → Option (List Char)
  | _, _, _, [] => none
  | depth, true, true, c :: cs => (balanced depth true false cs).map (c :: ·)
  | depth, true, false, c :: cs =>
    (balanced depth (c ≠ '\"') (c = '\\') cs).map (c :: ·)
  | depth, false, _, c :: cs =>
    if c = '\"' then (balanced depth true false cs).map (c :: ·)
    else if c = '\x7b' then (balanced (depth + 1) false false cs).map (c :: ·)
    else if c = '\x7d' then
      if depth = 1 then some [c] else (balanced (depth - 1) false false cs).map (c :: ·)
    else (balanced depth false false cs).map (c :: ·)

/-- the tool and the arguments of the first object in a text -/
def parseToolCall (parse : String → Except String Json) (llmOutput : String) :
    Option (String × Json) := do
  let text ← balanced 0 false false (llmOutput.toList.dropWhile (· ≠ '\x7b'))
  let parsed ← (parse (String.ofList text)).toOption
  match parsed.find? "tool", parsed.find? "arguments" with
  | some (.str toolId), some arguments => some (toolId, arguments)
  | _, _ => none

/-! ## the loop -/

structure OrchestrationConfig where
  maxSteps : Int := 10
  maxTotalTimeoutMs : Int := 120000

structure OrchestrationStep where
  stepNumber : Nat
  thought : String
  toolId : String := ""
  toolArguments : Json := .null
  toolResult : Option ToolExecutionResult := none

structure OrchestrationResult where
  success : Bool := false
  finalAnswer : String := ""
  steps : List OrchestrationStep := []
  error : String := ""

abbrev LlmFn := List Invocation → List Message → List Invocation × Except UpstreamFailure String

structure Orchestrator where
  config : OrchestrationConfig := {}
  registry : Option (List ToolDefinition) := none
  sandbox : Option ToolSandbox := none
  llmFn : Option LlmFn := none
  parse : String → Except String Json
  dump : Json → String

open Orchestrator

inductive RunError where
  | upstream (e : UpstreamFailure)
  | json (e : Json.TypeError)
  deriving DecidableEq, Repr

structure LoopState where
  messages : List Message
  currentInput : String
  history : List Invocation := []
  result : OrchestrationResult := {}

def LoopState.push (s : LoopState) (st : OrchestrationStep) (success : Bool)
    (answer error : String) : LoopState :=
  { s with result := { success, finalAnswer := answer, error := error
                       steps := s.result.steps ++ [st] } }

inductive Outcome where
  | again (s : LoopState)
  | stop (s : LoopState)
  | throw (history : List Invocation) (e : RunError)

namespace Orchestrator

variable (o : Orchestrator)

def buildSystemPrompt : String :=
  let prompt :=
    "You are a ReAct agent. On each turn either call a tool or give a final answer.\n"
    ++ "To call a tool, respond with a single JSON object on its own line:\n"
    ++ "\x7b\"tool\": \"<tool_id>\", \"arguments\": \x7b ... \x7d\x7d\n"
    ++ "To finish, respond with plain text beginning with \"Final Answer:\".\n"
    ++ "Only use tools from the list below. Do not invent tools.\n"
  match o.registry.map listTools with
  | none | some [] => prompt
  | some tools =>
    prompt ++ "\nAvailable tools:\n" ++ String.join (tools.map (fun t =>
      "- " ++ t.id ++ ": " ++ t.description ++ " schema=" ++ o.dump t.parametersSchema ++ "\n"))

def think (s : LoopState) : List Invocation × Except UpstreamFailure (String × LoopState) :=
  match o.llmFn with
  | none => (s.history, .ok (s.currentInput, s))
  | some llm =>
    match llm s.history s.messages with
    | (h, .error e) => (h, .error e)
    | (h, .ok output) =>
      (h, .ok (output, { s with
        history := h, messages := s.messages ++ [{ role := "assistant", content := output }] }))

/-- the gate of the registry; without a registry there is none -/
def rejection (toolId : String) (arguments : Json) : Except Json.TypeError (Option String) :=
  match o.registry with
  | none => .ok none
  | some tools => validateCall tools toolId arguments

def act (s : LoopState) (os : OrchestrationStep) (toolId : String) (arguments : Json) : Outcome :=
  match o.rejection toolId arguments with
  | .error e => .throw s.history (.json e)
  | .ok (some error) =>
    .stop (s.push os false s.result.finalAnswer ("Rejected tool call: " ++ error))
  | .ok none =>
    match o.sandbox with
    | none =>
      .stop (s.push os false s.result.finalAnswer "Tool call requested but no sandbox configured")
    | some sb =>
      match sb.execute toolId arguments s.history with
      | (h, .error e) => .throw h (.json e)
      | (h, .ok res) =>
        let s := { s with history := h }.push
          { os with toolId, toolArguments := arguments, toolResult := some res }
          true res.output s.result.error
        .again (match o.llmFn with
          | some _ => { s with messages := s.messages ++
              [{ role := "user", content := "Observation: " ++ res.output }] }
          | none => { s with currentInput := res.output })

def stepOnce (step : Nat) (s : LoopState) : Outcome :=
  match o.think s with
  | (h, .error e) => .throw h (.upstream e)
  | (_, .ok (output, s)) =>
    let os : OrchestrationStep := { stepNumber := step + 1, thought := output }
    match parseToolCall o.parse output with
    | none => .stop (s.push os true output s.result.error)
    | some (toolId, arguments) => o.act s os toolId arguments

/-- the loop with `k` steps left, and the clock at each step -/
def loop (clock : Nat → ℚ) : Nat → Nat → LoopState → List Invocation × Except RunError LoopState
  | 0, _, s => (s.history, .ok s)
  | k + 1, step, s =>
    if clock step ≥ o.config.maxTotalTimeoutMs then
      (s.history, .ok { s with result := { s.result with error := "Orchestration timeout exceeded" } })
    else
      match o.stepOnce step s with
      | .again s => loop clock k (step + 1) s
      | .stop s => (s.history, .ok s)
      | .throw h e => (h, .error e)

def start (userQuery : String) : LoopState where
  messages :=
    match o.llmFn with
    | none => []
    | some _ => [{ role := "system", content := o.buildSystemPrompt },
                 { role := "user", content := userQuery }]
  currentInput := userQuery

def run (clock : Nat → ℚ) (userQuery : String) :
    List Invocation × Except RunError OrchestrationResult :=
  match o.loop clock o.config.maxSteps.toNat 0 (o.start userQuery) with
  | (h, .error e) => (h, .error e)
  | (h, .ok s) =>
    (h, .ok (if s.result.steps.isEmpty && s.result.error = "" then
        { s.result with error := "Max steps reached without resolution" } else s.result))

end Orchestrator

/-! ## what a run invokes -/

/-- the tools a step has run: one or none -/
def ran (toolId : Option String) : List Invocation := toolId.toList.map .tool

lemma execute_history (sb : ToolSandbox) (toolId : String) (arguments : Json)
    (h : List Invocation) : ∃ t, (sb.execute toolId arguments h).1 = h ++ ran t := by
  unfold ToolSandbox.execute
  have hnone : ∃ t, h = h ++ ran t := ⟨none, (append_nil h).symm⟩
  split
  · exact hnone
  split
  · exact hnone
  split
  · exact hnone
  split
  · exact hnone
  · exact hnone
  split
  · exact ⟨some toolId, rfl⟩
  · exact ⟨some toolId, rfl⟩

def Outcome.history : Outcome → List Invocation
  | again s => s.history
  | stop s => s.history
  | throw h _ => h

section
variable {o : Orchestrator}

lemma act_history (s : LoopState) (os : OrchestrationStep) (toolId : String) (arguments : Json) :
    ∃ t, (o.act s os toolId arguments).history = s.history ++ ran t := by
  unfold act
  have hnone : ∃ t, s.history = s.history ++ ran t := ⟨none, (append_nil _).symm⟩
  split
  · exact hnone
  · exact hnone
  split
  · exact hnone
  next sb hsb =>
  have hexec := execute_history sb toolId arguments s.history
  split
  · next h e heq => rwa [heq] at hexec
  · next h res heq =>
    rw [heq] at hexec
    cases o.llmFn <;> exact hexec

lemma think_ok {s s' : LoopState} {h : List Invocation} {output : String}
    (heq : o.think s = (h, .ok (output, s'))) : s'.history = h ∧ s'.result = s.result := by
  unfold think at heq
  split at heq
  · cases heq
    exact ⟨rfl, rfl⟩
  split at heq
  · cases heq
  · cases heq
    exact ⟨rfl, rfl⟩

lemma stepOnce_history (step : Nat) (s : LoopState) :
    ∃ t, (o.stepOnce step s).history = (o.think s).1 ++ ran t := by
  unfold stepOnce
  split
  · next h e heq =>
    rw [heq]
    exact ⟨none, (append_nil h).symm⟩
  next h output s' heq =>
  rw [heq, ← (think_ok heq).1]
  split
  · exact ⟨none, (append_nil _).symm⟩
  · exact act_history _ _ _ _

lemma stepOnce_extends (step : Nat) (s : LoopState) :
    (o.think s).1 <+: (o.stepOnce step s).history := by
  obtain ⟨t, ht⟩ := stepOnce_history (o := o) step s
  rw [ht]
  exact prefix_append _ _

def llmOf (b : Backend) (model : String) : LlmFn := fun h messages =>
  b.executeWithFallback messages model h

variable {b : Backend} {model : String} {clock : Nat → ℚ}

section
variable (hllm : o.llmFn = some (llmOf b model))
include hllm

lemma think_fst (s : LoopState) :
    (o.think s).1 = (b.executeWithFallback s.messages model s.history).1 := by
  unfold think
  rw [hllm]
  simp only [llmOf]
  split <;> simp_all

lemma loop_extends (k : Nat) :
    ∀ (step : Nat) (s : LoopState), s.history <+: (o.loop clock k step s).1 := by
  induction k with
  | zero => intro step s; exact prefix_refl _
  | succ k ih =>
    intro step s
    rw [loop]
    split
    · exact prefix_refl _
    have hthink := think_fst hllm s ▸ Backend.executeWithFallback_extends s.history
    have hstep := hthink.trans (stepOnce_extends step s)
    split
    · next s' heq =>
      rw [heq] at hstep
      exact hstep.trans (ih _ s')
    · next s' heq => rwa [heq] at hstep
    · next h e heq => rwa [heq] at hstep

lemma loop_eq_nil_iff (k : Nat) {s : LoopState} (hs : s.history = []) :
    (o.loop clock k 0 s).1 = []
      ↔ k = 0 ∨ o.config.maxTotalTimeoutMs ≤ clock 0 ∨ ¬ b.Callable model [] := by
  cases k with
  | zero => simp [loop, hs]
  | succ k =>
    rw [loop]
    split
    · next htime => simp [hs, htime]
    next htime =>
    have hcond : (k + 1 = 0 ∨ o.config.maxTotalTimeoutMs ≤ clock 0 ∨ ¬ b.Callable model [])
        ↔ ¬ b.Callable model [] := by
      constructor
      · rintro (h | h | h)
        · cases h
        · exact absurd h htime
        · exact h
      · exact fun h => .inr (.inr h)
    rw [hcond]
    by_cases hc : b.Callable model []
    · have hne : (o.think s).1 ≠ [] := by
        rw [think_fst hllm, hs]
        obtain ⟨m, hmem, hm⟩ := hc
        exact Backend.tryCandidates_of_some hmem hm _
      have hstep : (o.stepOnce 0 s).history ≠ [] := by
        intro hnil
        have hpre := stepOnce_extends (o := o) 0 s
        rw [hnil] at hpre
        exact hne (prefix_nil.1 hpre)
      simp only [hc, not_true_eq_false, iff_false]
      split
      · next s' heq =>
        rw [heq] at hstep
        intro hnil
        have hpre : s'.history <+: (o.loop clock k 1 s').1 := loop_extends hllm k 1 s'
        rw [hnil] at hpre
        exact hstep (prefix_nil.1 hpre)
      · next s' heq => rwa [heq] at hstep
      · next h e heq => rwa [heq] at hstep
    · obtain ⟨e, he⟩ : ∃ e, b.executeWithFallback s.messages model [] = ([], .error e) :=
        Backend.tryCandidates_of_none (fun m hmem hm => hc ⟨m, hmem, hm⟩) _
      have hthrow : o.stepOnce 0 s = .throw [] (.upstream e) := by
        simp only [stepOnce, think, hllm, llmOf, hs, he]
      rw [hthrow]
      simp [hc]

end

lemma run_fst (query : String) :
    (o.run clock query).1 = (o.loop clock o.config.maxSteps.toNat 0 (o.start query)).1 := by
  unfold run
  split <;> simp_all

theorem run_invokes_iff (hllm : o.llmFn = some (llmOf b model)) (query : String) :
    (o.run clock query).1 ≠ []
      ↔ 0 < o.config.maxSteps ∧ clock 0 < o.config.maxTotalTimeoutMs ∧ b.Callable model [] := by
  rw [run_fst, Ne, loop_eq_nil_iff hllm _ rfl, not_or, not_or, Rat.not_le, not_not]
  have hsteps : ¬ o.config.maxSteps.toNat = 0 ↔ 0 < o.config.maxSteps := by omega
  rw [hsteps]

end

/-! ## what a run says of itself -/

section
variable (o : Orchestrator) (r : OrchestrationResult)

/-- the last step has an output without a tool call -/
def OrchestrationResult.Answered : Prop :=
  ∃ st, r.steps.getLast? = some st ∧ parseToolCall o.parse st.thought = none

def OrchestrationResult.Truthful : Prop :=
  (r.success ↔ r.Answered o) ∧ (r.error = "" ↔ r.success)

/-- the loop comes to a limit, of steps or of time, after it has run a tool -/
def Orchestrator.cutShort (o : Orchestrator) (clock : Nat → ℚ) : Nat → Nat → LoopState → Bool
  | 0, step, _ => 0 < step
  | k + 1, step, s =>
    if clock step ≥ o.config.maxTotalTimeoutMs then 0 < step
    else
      match o.stepOnce step s with
      | .again s => o.cutShort clock k (step + 1) s
      | _ => false

/-- the calls of the model in a step: one or none -/
def called (model : Option String) : List Invocation := model.toList.map .connector

/-- each call of the model is logged as one invocation -/
def Orchestrator.Logged : Prop :=
  ∀ llm, o.llmFn = some llm → ∀ h messages, ∃ model, (llm h messages).1 = h ++ called (some model)

def settle : OrchestrationResult :=
  if r.steps.isEmpty && r.error = "" then
    { r with error := "Max steps reached without resolution" }
  else r

/-- what holds of the result while the loop goes on, after `n` steps -/
structure Running (o : Orchestrator) (n : Nat) (s : LoopState) : Prop where
  error : s.result.error = ""
  success : s.result.success ↔ 0 < n
  steps : s.result.steps = [] ↔ n = 0
  called : ¬ s.result.Answered o

def Outcome.Sound (n : Nat) : Outcome → Prop
  | again s => Running o n s
  | stop s => s.result.steps ≠ [] ∧ s.result.Truthful o
  | throw _ _ => True

end

section
variable {o : Orchestrator} {clock : Nat → ℚ} {n : Nat} {s : LoopState}

lemma not_answered {r : OrchestrationResult} {l : List OrchestrationStep} {st : OrchestrationStep}
    {call : String × Json} (hsteps : r.steps = l ++ [st])
    (hcall : parseToolCall o.parse st.thought = some call) : ¬ r.Answered o := by
  rintro ⟨st', hlast, hnone⟩
  rw [hsteps, getLast?_concat] at hlast
  cases hlast
  rw [hcall] at hnone
  cases hnone

lemma act_sound {os : OrchestrationStep} {toolId : String} {arguments : Json}
    (herror : s.result.error = "")
    (hcall : parseToolCall o.parse os.thought = some (toolId, arguments)) :
    (o.act s os toolId arguments).Sound o (n + 1) := by
  have hrefused (answer : String) {error : String} (he : error ≠ "") :
      (Outcome.stop (s.push os false answer error)).Sound o (n + 1) := by
    refine ⟨by simp [LoopState.push], iff_of_false Bool.false_ne_true (not_answered rfl hcall), ?_⟩
    exact iff_of_false he Bool.false_ne_true
  unfold act
  split
  · trivial
  · exact hrefused _ (by simp)
  split
  · exact hrefused _ (by simp)
  split
  · trivial
  · cases o.llmFn <;>
      exact ⟨herror, by simp [LoopState.push], by simp [LoopState.push], not_answered rfl hcall⟩

lemma stepOnce_sound (h : Running o n s) : (o.stepOnce n s).Sound o (n + 1) := by
  unfold stepOnce
  split
  · trivial
  next output s' heq =>
  have hresult := (think_ok heq).2
  have herror : s'.result.error = "" := by rw [hresult, h.error]
  dsimp only
  split
  · next hcall =>
    refine ⟨by simp [LoopState.push], iff_of_true rfl ⟨_, getLast?_concat, hcall⟩, ?_⟩
    exact iff_of_true herror rfl
  · next hcall => exact act_sound herror hcall

lemma settle_truthful_iff (h : Running o n s) {r : OrchestrationResult}
    (hr : r = s.result ∨ r = { s.result with error := "Orchestration timeout exceeded" }) :
    (settle r).Truthful o ↔ n = 0 := by
  have hcalled : ¬ (settle r).Answered o := by
    unfold settle
    rcases hr with rfl | rfl <;> split <;> exact h.called
  have hsuccess : (settle r).success ↔ 0 < n := by
    unfold settle
    rcases hr with rfl | rfl <;> split <;> exact h.success
  refine ⟨fun ht => Nat.eq_zero_of_not_pos fun hn => hcalled (ht.1.1 (hsuccess.2 hn)), ?_⟩
  intro hn
  have hfails : ¬ (settle r).success := fun hs => Nat.ne_of_gt (hsuccess.1 hs) hn
  have herror : (settle r).error ≠ "" := by
    rcases hr with rfl | rfl <;> simp [settle, h.steps.2 hn, h.error]
  exact ⟨iff_of_false hfails hcalled, iff_of_false herror hfails⟩

lemma loop_truthful_iff (k : Nat) : ∀ (step : Nat) (s : LoopState), Running o step s →
    ((∀ t, (o.loop clock k step s).2 = .ok t → (settle t.result).Truthful o) ↔
      o.cutShort clock k step s = false) := by
  induction k with
  | zero =>
    intro step s h
    simp [loop, cutShort, settle_truthful_iff h (.inl rfl)]
  | succ k ih =>
    intro step s h
    have hstep := stepOnce_sound h
    rw [loop, cutShort]
    split
    · simp [settle_truthful_iff h (.inr rfl)]
    cases hout : o.stepOnce step s with
    | again t =>
      rw [hout] at hstep
      exact ih (step + 1) t hstep
    | stop t =>
      rw [hout] at hstep
      have hsettle : settle t.result = t.result := by simp [settle, hstep.1]
      simp [hsettle, hstep.2]
    | throw hist e => simp

lemma loop_countP {p : Invocation → Bool} (hlog : o.Logged)
    (hp : ∀ m t, (called m ++ ran t).countP p ≤ 1) (k : Nat) : ∀ (step : Nat) (s : LoopState),
      (o.loop clock k step s).1.countP p ≤ s.history.countP p + k := by
  induction k with
  | zero => exact fun _ _ => le_refl _
  | succ k ih =>
    intro step s
    obtain ⟨m, hm⟩ : ∃ m, (o.think s).1 = s.history ++ called m := by
      unfold think
      split
      · exact ⟨none, (append_nil _).symm⟩
      next llm hllm =>
      obtain ⟨model, hmodel⟩ := hlog llm hllm s.history s.messages
      exact ⟨some model, by split <;> simp_all⟩
    obtain ⟨t, ht⟩ := stepOnce_history (o := o) step s
    have hle : (o.stepOnce step s).history.countP p ≤ s.history.countP p + 1 := by
      rw [ht, hm, append_assoc, countP_append]
      exact Nat.add_le_add_left (hp m t) _
    rw [loop]
    split
    · exact Nat.le_add_right _ _
    cases hout : o.stepOnce step s with
    | again s' =>
      rw [hout] at hle
      exact (ih (step + 1) s').trans ((Nat.add_le_add_right hle k).trans (by omega))
    | stop _ | throw _ _ =>
      rw [hout] at hle
      exact hle.trans (by omega)

lemma run_snd (query : String) : (o.run clock query).2 =
    (o.loop clock o.config.maxSteps.toNat 0 (o.start query)).2.map (settle ·.result) := by
  unfold run
  split <;> simp_all [settle, Except.map]

/-- the bounds hold in every run; what it says of itself is true exactly when no limit stops it
after it has run a tool -/
theorem run_truthful_iff (hlog : o.Logged) (clock : Nat → ℚ) (query : String) :
    (o.run clock query).1.countP (· matches .connector _) ≤ o.config.maxSteps.toNat ∧
      (o.run clock query).1.countP (· matches .tool _) ≤ o.config.maxSteps.toNat ∧
      ((∀ r, (o.run clock query).2 = .ok r → r.Truthful o) ↔
        o.cutShort clock o.config.maxSteps.toNat 0 (o.start query) = false) := by
  have hcount {p : Invocation → Bool} (hp : ∀ m t, (called m ++ ran t).countP p ≤ 1) :
      (o.run clock query).1.countP p ≤ o.config.maxSteps.toNat := by
    rw [run_fst]
    exact (loop_countP hlog hp _ 0 (o.start query)).trans_eq (Nat.zero_add _)
  refine ⟨hcount ?_, hcount ?_, ?_⟩
  · intro m t
    cases m <;> cases t <;> simp [called, ran]
  · intro m t
    cases m <;> cases t <;> simp [called, ran]
  · rw [run_snd, ← loop_truthful_iff _ 0 _ ⟨rfl, by simp [start], by simp [start],
      fun ⟨_, h, _⟩ => by cases h⟩]
    cases (o.loop clock o.config.maxSteps.toNat 0 (o.start query)).2 <;> simp [Except.map]

end

def toolDown : Orchestrator where
  config := { maxSteps := 1 }
  sandbox := some ⟨[{ id := "t" }], some (fun _ _ _ => .error "down")⟩
  parse := fun _ => .ok (.obj [("tool", .str "t"), ("arguments", .obj [])])
  dump := fun _ => ""

def toolCall : String := "\x7b\"tool\": \"t\", \"arguments\": \x7b\x7d\x7d"

theorem failed_tool_is_success :
    (toolDown.run (fun _ => 0) toolCall).2.toOption.map (fun r => (r.success, r.error,
        r.steps.map (·.toolResult.map (·.status)))) = some (true, "", [some .error]) ∧
      ¬ ∀ r, (toolDown.run (fun _ => 0) toolCall).2 = .ok r → r.Truthful toolDown := by
  refine ⟨by decide, fun h => ?_⟩
  obtain ⟨st, hlast, hnone⟩ := (h _ rfl).1.1 rfl
  cases hlast
  revert hnone
  decide

/-- the model calls the tool, and answers when it has run -/
def toolUp : Orchestrator where
  sandbox := some ⟨[{ id := "t" }], some (fun _ _ _ => .ok "42")⟩
  llmFn := some fun h _ =>
    (h ++ [.connector "m"], .ok (if h.any (· matches .tool _) then "done" else toolCall))
  parse := fun _ => .ok (.obj [("tool", .str "t"), ("arguments", .obj [])])
  dump := fun _ => ""

theorem plain_answer_truthful :
    (toolUp.run (fun _ => 0) "query").1 = [.connector "m", .tool "t", .connector "m"] ∧
      ∃ r, (toolUp.run (fun _ => 0) "query").2 = .ok r ∧ r.Truthful toolUp := by
  have hlog : toolUp.Logged := by
    intro llm hllm h _
    cases hllm
    exact ⟨"m", rfl⟩
  exact ⟨by decide, _, rfl, (run_truthful_iff hlog (fun _ => 0) "query").2.2.2 (by decide) _ rfl⟩

end AegisGate.Agent
