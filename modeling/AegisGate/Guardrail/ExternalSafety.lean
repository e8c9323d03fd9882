import AegisGate.Guardrail.Inbound
import AegisGate.Lib.Run

/-!
# External safety providers

`src/guardrail/inbound/external_safety_stage.cpp`: the text of a request goes to every provider, and
their results decide.  One stage serves all requests, and the results of the request in progress are
in its member `last_results_`.

* `shouldBlock`  the decision over a list of results;
* `Stage`  the shared members, and the requests in progress;
* `advance`  the next access of a request to the shared results, and what follows from it;
* `verdict`  what a request is answered from its own results;
* `Undisturbed`  no request clears or adds results while another one is collecting.

A request comes with the results its providers give, one for each provider, in their order.  Log
lines and latencies are left out.
-/

namespace AegisGate.ExternalSafety

open List List Run

inductive Mode where
  | any
  | all
  | majority
  deriving DecidableEq

inductive FailPolicy where
  | failOpen
  | failClosed
  deriving DecidableEq

structure SafetyCategory where
  name : String
  score : ℚ := 0
  flagged : Bool := false
  deriving DecidableEq

structure SafetyResult where
  flagged : Bool := false
  categories : List SafetyCategory := []
  provider : String := ""
  error : String := ""
  success : Bool := true
  deriving DecidableEq

structure Config where
  mode : Mode := .any
  failPolicy : FailPolicy := .failOpen
  shadowMode : Bool := false
  shadowMaxInflight : Nat := 1000
  scanner : Scanner
  /-- `std::to_string` of a score, its first five characters -/
  scoreText : ℚ → String
  /-- whether an audit logger and a guard admin controller are set -/
  auditLogger : Bool := true
  guardAdminController : Bool := true

def shouldBlock (cfg : Config) (results : List SafetyResult) : Bool :=
  let flaggedCount := results.countP (fun r => r.success && r.flagged)
  let successCount := results.countP (·.success)
  let errorCount := results.countP (!·.success)
  if 0 < errorCount ∧ successCount = 0 then cfg.failPolicy = .failClosed
  else if 0 < errorCount ∧ cfg.failPolicy = .failClosed then true
  else
    match cfg.mode with
    | .any => 0 < flaggedCount
    | .all => 0 < successCount && flaggedCount = successCount
    | .majority => 0 < successCount && successCount / 2 < flaggedCount

def appendScanned (text : Bytes) (m : Scanned) : Except Json.TypeError Bytes :=
  if isToolMessage m.msg then .ok text
  else do
    let image ← m.image
    return (if text = [] then [] else text ++ [10]) ++ m.text ++
      if image = [] then [] else 10 :: image

def extractTextFromRequest (sc : Scanner) (ctx : ScanContext) : Except Json.TypeError Bytes :=
  (view sc ctx).foldlM appendScanned []

/-! ## requests in progress -/

structure Request where
  requestId : String
  tenantId : String := ""
  ctx : ScanContext
  answers : List SafetyResult

inductive Phase where
  | start
  /-- the results are cleared, and these are still to be added -/
  | collecting (todo : List SafetyResult)
  | describing
  | recording
  | returned (result : Except Json.TypeError StageResult)

structure InProgress where
  request : Request
  phase : Phase := .start
  externalSafetyChecked : Bool := false
  externalSafetyFlagged : Bool := false

structure AuditEntry where
  requestId : String
  tenantId : String
  action : String
  detail : String
  deriving DecidableEq

structure GuardExplanation where
  triggerLayer : String
  triggerRuleId : String
  matchedPattern : String
  confidence : ℚ
  threshold : ℚ
  explanationText : String
  deriving DecidableEq

structure Stage where
  lastResults : List SafetyResult := []
  /-- the shadow workers that are running -/
  shadowInflight : List Request := []
  shadowDispatched : Nat := 0
  shadowSkipped : Nat := 0
  shadowAuditWrites : Nat := 0
  audit : List AuditEntry := []
  explanations : List (String × GuardExplanation) := []
  requests : List InProgress := []

open Stage

def categoryDetails (cfg : Config) (r : SafetyResult) : String :=
  (r.categories.filter (·.flagged)).foldl
    (fun s c => s ++ "[" ++ c.name ++ ":" ++ cfg.scoreText c.score ++ "] ") ""

def details (cfg : Config) (results : List SafetyResult) : String :=
  (results.filter (·.flagged)).foldl (fun s r => s ++ r.provider ++ " " ++ categoryDetails cfg r) ""

def fromExternalProvider (provider verdict : String) (confidence : ℚ) : GuardExplanation where
  triggerLayer := "L4"
  triggerRuleId := provider
  matchedPattern := verdict
  confidence := confidence
  threshold := 1 / 2
  explanationText := "External provider '" ++ provider ++ "' verdict=" ++ verdict

/-- the first flagged provider with its first flagged category -/
def explain (results : List SafetyResult) : GuardExplanation :=
  match results.find? (·.flagged) with
  | none => fromExternalProvider "" "" 0
  | some r =>
    match r.categories.find? (·.flagged) with
    | none => fromExternalProvider r.provider "" 0
    | some c => fromExternalProvider r.provider c.name c.score

namespace Stage

def put (s : Stage) (i : Nat) (p : InProgress) : Stage := { s with requests := s.requests.set i p }

variable (cfg : Config) (s : Stage) (i : Nat) (p : InProgress)

/-- the part of `process` before the results are collected -/
def start : Stage :=
  if p.request.answers = [] then s.put i { p with phase := .returned (.ok .continue) }
  else
    match extractTextFromRequest cfg.scanner p.request.ctx with
    | .error e => s.put i { p with phase := .returned (.error e) }
    | .ok text =>
      if text = [] then s.put i { p with phase := .returned (.ok .continue) }
      else if cfg.shadowMode then
        let s := s.put i { p with phase := .returned (.ok .continue) }
        if s.shadowInflight.length < cfg.shadowMaxInflight then
          { s with
            shadowInflight := s.shadowInflight ++ [p.request]
            shadowDispatched := s.shadowDispatched + 1 }
        else { s with shadowSkipped := s.shadowSkipped + 1 }
      else { s.put i { p with phase := .collecting p.request.answers } with lastResults := [] }

def decide : Stage :=
  let p := { p with externalSafetyChecked := true }
  if shouldBlock cfg s.lastResults then
    s.put i { p with phase := .describing, externalSafetyFlagged := true }
  else s.put i { p with phase := .returned (.ok .continue) }

def describe : Stage :=
  let s := s.put i { p with phase := .recording }
  if cfg.auditLogger then
    { s with audit := s.audit ++ [⟨p.request.requestId, p.request.tenantId, "blocked",
        "external_safety " ++ details cfg s.lastResults⟩] }
  else s

def record : Stage :=
  let s := s.put i { p with phase := .returned (.ok .reject) }
  if cfg.guardAdminController then
    { s with explanations := s.explanations ++ [(p.request.requestId, explain s.lastResults)] }
  else s

def advance : Stage :=
  match s.requests[i]? with
  | none => s
  | some p =>
    match p.phase with
    | .start => s.start cfg i p
    | .collecting (r :: todo) =>
      { s.put i { p with phase := .collecting todo } with lastResults := s.lastResults ++ [r] }
    | .collecting [] => s.decide cfg i p
    | .describing => s.describe cfg i p
    | .recording => s.record cfg i p
    | .returned _ => s

def shadowOutcome (r : SafetyResult) : String :=
  if !r.success then "error" else if r.flagged then "flagged" else "ok"

/-- the end of a shadow worker, whose results are its own -/
def shadowDispatch (j : Nat) : Stage :=
  match s.shadowInflight[j]? with
  | none => s
  | some req =>
    let s := { s with shadowInflight := s.shadowInflight.eraseIdx j }
    if cfg.auditLogger then
      { s with
        audit := s.audit ++ [⟨req.requestId, req.tenantId, "external_safety_shadow",
          "shadow=true providers=" ++ toString req.answers.length ++
            String.join (req.answers.map (fun r => "; " ++ r.provider ++ ":" ++ shadowOutcome r))⟩]
        shadowAuditWrites := s.shadowAuditWrites + 1 }
    else s

end Stage

inductive StageEvent where
  | arrive (req : Request)
  | advance (i : Nat)
  | shadow (j : Nat)

def stageStep (cfg : Config) (s : Stage) : StageEvent → Stage
  | .arrive req => { s with requests := s.requests ++ [{ request := req }] }
  | .advance i => s.advance cfg i
  | .shadow j => s.shadowDispatch cfg j

/-! ## what a request is answered -/

/-- the providers are asked and the request waits for their results -/
def Scans (cfg : Config) (req : Request) : Prop :=
  req.answers ≠ [] ∧ cfg.shadowMode = false
    ∧ ∃ text, extractTextFromRequest cfg.scanner req.ctx = .ok text ∧ text ≠ []

def verdict (cfg : Config) (req : Request) : Except Json.TypeError StageResult :=
  if req.answers = [] then .ok .continue
  else
    match extractTextFromRequest cfg.scanner req.ctx with
    | .error e => .error e
    | .ok text =>
      if text = [] ∨ cfg.shadowMode then .ok .continue
      else if shouldBlock cfg req.answers then .ok .reject
      else .ok .continue

lemma verdict_of_scans {cfg : Config} {req : Request} (h : Scans cfg req) :
    verdict cfg req = .ok (if shouldBlock cfg req.answers then .reject else .continue) := by
  obtain ⟨hanswers, hshadow, text, htext, hne⟩ := h
  unfold verdict
  rw [if_neg hanswers, htext]
  dsimp only
  rw [if_neg (by rw [hshadow]; exact fun h => h.elim hne nofun)]
  split <;> rfl

/-- what a step of a request does to the shared results and to its phase -/
inductive Moves (cfg : Config) (results : List SafetyResult) (req : Request) :
    Phase → List SafetyResult → Phase → Prop
  | skipped : Moves cfg results req .start results (.returned (verdict cfg req))
  | cleared (h : Scans cfg req) : Moves cfg results req .start [] (.collecting req.answers)
  | added (r : SafetyResult) (todo : List SafetyResult) :
    Moves cfg results req (.collecting (r :: todo)) (results ++ [r]) (.collecting todo)
  | blocked (h : shouldBlock cfg results) :
    Moves cfg results req (.collecting []) results .describing
  | passed (h : shouldBlock cfg results = false) :
    Moves cfg results req (.collecting []) results (.returned (.ok .continue))
  | described : Moves cfg results req .describing results .recording
  | recorded : Moves cfg results req .recording results (.returned (.ok .reject))
  | rested (res : Except Json.TypeError StageResult) :
    Moves cfg results req (.returned res) results (.returned res)

section
variable {cfg : Config} {s : Stage} {i : Nat} {p : InProgress}

lemma start_moves (hphase : p.phase = .start) :
    ∃ p', (s.start cfg i p).requests = s.requests.set i p' ∧ p'.request = p.request
      ∧ Moves cfg s.lastResults p.request p.phase (s.start cfg i p).lastResults p'.phase := by
  rw [hphase]
  have hskip : ∀ res, verdict cfg p.request = res →
      Moves cfg s.lastResults p.request .start s.lastResults (.returned res) := by
    rintro _ rfl
    exact .skipped
  unfold start
  split
  · next hnil => exact ⟨_, rfl, rfl, hskip _ (by unfold verdict; rw [if_pos hnil])⟩
  · next hanswers =>
    split
    · next e he =>
      exact ⟨_, rfl, rfl, hskip _ (by unfold verdict; rw [if_neg hanswers, he])⟩
    · next text htext =>
      split
      · next hnil =>
        refine ⟨_, rfl, rfl, hskip _ ?_⟩
        unfold verdict
        rw [if_neg hanswers, htext]
        exact if_pos (.inl hnil)
      · next hne =>
        split
        · next hshadow =>
          have hverdict : verdict cfg p.request = .ok .continue := by
            unfold verdict
            rw [if_neg hanswers, htext]
            exact if_pos (.inr hshadow)
          dsimp only
          split <;> exact ⟨_, rfl, rfl, hskip _ hverdict⟩
        · next hshadow =>
          exact ⟨_, rfl, rfl, .cleared ⟨hanswers, Bool.eq_false_iff.2 hshadow, text, htext, hne⟩⟩

lemma advance_moves (cfg : Config) (h : s.requests[i]? = some p) :
    ∃ p', (s.advance cfg i).requests = s.requests.set i p' ∧ p'.request = p.request
      ∧ Moves cfg s.lastResults p.request p.phase (s.advance cfg i).lastResults p'.phase := by
  unfold advance
  rw [h]
  dsimp only
  split
  · next hphase => exact start_moves hphase
  · next r todo hphase =>
    rw [hphase]
    exact ⟨_, rfl, rfl, .added r todo⟩
  · next hphase =>
    rw [hphase]
    unfold Stage.decide
    split
    · next hblock => exact ⟨_, rfl, rfl, .blocked hblock⟩
    · next hpass => exact ⟨_, rfl, rfl, .passed (Bool.eq_false_iff.2 hpass)⟩
  · next hphase =>
    rw [hphase]
    unfold describe
    split <;> exact ⟨_, rfl, rfl, .described⟩
  · next hphase =>
    rw [hphase]
    unfold record
    split <;> exact ⟨_, rfl, rfl, .recorded⟩
  · next res hphase =>
    obtain ⟨hi, rfl⟩ := List.getElem?_eq_some_iff.1 h
    refine ⟨s.requests[i], (set_getElem_self hi).symm, rfl, ?_⟩
    rw [hphase]
    exact .rested res

end

/-! ## requests that are not disturbed -/

section
variable {cfg : Config} {results results' : List SafetyResult} {phase' : Phase} {p : InProgress}

/-- the shared results are those of the request so far, and its answer is its own -/
def Sound (cfg : Config) (results : List SafetyResult) (req : Request) : Phase → Prop
  | .start => True
  | .collecting todo => Scans cfg req ∧ results ++ todo = req.answers
  | .describing => verdict cfg req = .ok .reject
  | .recording => verdict cfg req = .ok .reject
  | .returned res => res = verdict cfg req

lemma Moves.sound {req : Request} {phase : Phase}
    (h : Moves cfg results req phase results' phase') (hs : Sound cfg results req phase) :
    Sound cfg results' req phase' := by
  cases h with
  | skipped => rfl
  | cleared hscan => exact ⟨hscan, rfl⟩
  | added r todo =>
    refine ⟨hs.1, ?_⟩
    rw [append_assoc]
    exact hs.2
  | blocked hblock =>
    obtain ⟨hscan, hall⟩ := hs
    rw [append_nil] at hall
    show verdict cfg req = .ok .reject
    rw [verdict_of_scans hscan, ← hall, hblock]
    rfl
  | passed hpass =>
    obtain ⟨hscan, hall⟩ := hs
    rw [append_nil] at hall
    show .ok .continue = verdict cfg req
    rw [verdict_of_scans hscan, ← hall, hpass]
    rfl
  | described => exact hs
  | recorded => exact hs.symm
  | rested res => exact hs

def Stage.Returns (s : Stage) (i : Nat) (req : Request)
    (res : Except Json.TypeError StageResult) : Prop :=
  ∃ p, s.requests[i]? = some p ∧ p.request = req ∧ p.phase = .returned res

def InProgress.Collecting (p : InProgress) : Prop := ∃ todo, p.phase = .collecting todo

/-- the next step of the request clears the results or adds one -/
def InProgress.Writes (cfg : Config) (p : InProgress) : Prop :=
  (p.phase = .start ∧ Scans cfg p.request) ∨ ∃ r todo, p.phase = .collecting (r :: todo)

def Undisturbed (cfg : Config) (s : Stage) : StageEvent → Prop
  | .advance i => ∀ p, s.requests[i]? = some p → p.Writes cfg →
      ∀ j q, s.requests[j]? = some q → q.Collecting → j = i
  | _ => True

lemma Moves.results_eq (h : Moves cfg results p.request p.phase results' phase')
    (hw : ¬ p.Writes cfg) : results' = results := by
  generalize hphase : p.phase = phase at h
  cases h with
  | cleared hscan => exact absurd (.inl ⟨hphase, hscan⟩) hw
  | added r todo => exact absurd (.inr ⟨r, todo, hphase⟩) hw
  | skipped | blocked | passed | described | recorded | rested => rfl

def Stage.Intact (cfg : Config) (s : Stage) : Prop :=
  ∀ (j : Nat) (q : InProgress), s.requests[j]? = some q → Sound cfg s.lastResults q.request q.phase

lemma Stage.Intact.step {s : Stage} (h : s.Intact cfg) {e : StageEvent}
    (hquiet : Undisturbed cfg s e) : (stageStep cfg s e).Intact cfg := by
  cases e with
  | arrive req =>
    intro j q hq
    rcases Nat.lt_or_ge j s.requests.length with hlt | hge
    · exact h j q ((getElem?_append_left hlt).symm.trans hq)
    · have hq' := (getElem?_append_right hge).symm.trans hq
      rw [mem_singleton.1 (mem_of_getElem? hq')]
      trivial
  | shadow j =>
    show (s.shadowDispatch cfg j).Intact cfg
    unfold shadowDispatch
    split
    · exact h
    · split <;> exact h
  | advance i =>
    show (s.advance cfg i).Intact cfg
    cases hi : s.requests[i]? with
    | none =>
      unfold advance
      rw [hi]
      exact h
    | some p =>
      obtain ⟨p', hset, hreq, hmove⟩ := advance_moves cfg hi
      intro j q hq
      rw [hset] at hq
      by_cases hij : i = j
      · subst hij
        rw [getElem?_set_self (List.getElem?_eq_some_iff.1 hi).1] at hq
        cases hq
        rw [hreq]
        exact hmove.sound (h i p hi)
      · rw [getElem?_set_ne hij] at hq
        by_cases hw : p.Writes cfg
        · have hsound := h j q hq
          cases hphase : q.phase with
          | collecting todo => exact absurd (hquiet p hi hw j q hq ⟨todo, hphase⟩).symm hij
          | start => trivial
          | describing | recording | returned res => rw [hphase] at hsound; exact hsound
        · rw [hmove.results_eq hw]
          exact h j q hq

end

/-! ## a request alone -/

def Phase.rank (answers : Nat) : Phase → Nat
  | .start => answers + 4
  | .collecting todo => todo.length + 3
  | .describing => 2
  | .recording => 1
  | .returned _ => 0

lemma Moves.rank_lt {cfg : Config} {results results' : List SafetyResult} {req : Request}
    {phase phase' : Phase} (h : Moves cfg results req phase results' phase')
    (hrun : phase.rank req.answers.length ≠ 0) :
    phase'.rank req.answers.length < phase.rank req.answers.length := by
  cases h with
  | skipped => exact Nat.succ_pos _
  | cleared | added | blocked => exact Nat.lt_succ_self _
  | passed => exact Nat.succ_pos _
  | described | recorded => exact Nat.lt_succ_self _
  | rested => exact absurd rfl hrun

/-- a request that has the stage for itself returns its own verdict -/
lemma alone_returns (cfg : Config) : ∀ (k : Nat) (s : Stage) (p : InProgress),
    p.phase.rank p.request.answers.length = k → s.requests = [p] → s.Intact cfg →
      ∃ n, (exec (stageStep cfg) s (replicate n (.advance 0))).Returns 0 p.request
        (verdict cfg p.request) := by
  intro k
  induction k using Nat.strong_induction_on with
  | _ k ih =>
    intro s p hk hone hintact
    have h0 : s.requests[0]? = some p := by rw [hone]; rfl
    by_cases hrank : p.phase.rank p.request.answers.length = 0
    · refine ⟨0, p, h0, rfl, ?_⟩
      have hsound := hintact 0 p h0
      cases hphase : p.phase with
      | returned res =>
        rw [hphase] at hsound
        rw [hsound]
      | start | collecting todo | describing | recording => rw [hphase] at hrank; cases hrank
    · obtain ⟨p1, hset, hreq, hmove⟩ := advance_moves cfg h0
      have hless : p1.phase.rank p1.request.answers.length < k := by
        rw [hreq, ← hk]
        exact hmove.rank_lt hrank
      have hquiet : Undisturbed cfg s (.advance 0) := by
        intro q _ _ j q' hq' _
        rw [hone] at hq'
        exact Nat.lt_one_iff.1 (List.getElem?_eq_some_iff.1 hq').1
      rw [hone] at hset
      obtain ⟨n, hn⟩ := ih _ hless (s.advance cfg 0) p1 rfl hset (hintact.step hquiet)
      rw [hreq] at hn
      exact ⟨n + 1, hn⟩

/-- without disturbance, each request is answered as if it were alone on the stage -/
theorem verdicts_do_not_mix (cfg : Config) (s₀ s₁ : Stage) (events : List StageEvent)
    (hidle₀ : s₀.requests = []) (hidle₁ : s₁.requests = [])
    (hquiet : Along (stageStep cfg) (Undisturbed cfg) s₀ events) :
    ∀ i req res, (exec (stageStep cfg) s₀ events).Returns i req res → ∃ n, (exec (stageStep cfg) s₁
        (.arrive req :: replicate n (.advance 0))).Returns 0 req res := by
  intro i req res hreturns
  obtain ⟨p, hp, rfl, hphase⟩ := hreturns
  have hnone : ∀ s : Stage, s.requests = [] → s.Intact cfg := by
    intro s hs j q hq
    rw [hs] at hq
    cases hq
  have hintact : (exec (stageStep cfg) s₀ events).Intact cfg :=
    Along.inv (I := Intact cfg) (A := fun _ => True) (fun s e h _ hq => h.step hq)
      events s₀ (hnone s₀ hidle₀) (fun _ _ => trivial) hquiet events (prefix_refl _)
  have hres : res = verdict cfg p.request := by
    have hsound := hintact i p hp
    rwa [hphase] at hsound
  have harrive : (stageStep cfg s₁ (.arrive p.request)).requests = [{ request := p.request }] := by
    show s₁.requests ++ _ = _
    rw [hidle₁]
    rfl
  rw [hres]
  exact alone_returns cfg _ _ { request := p.request } rfl harrive ((hnone s₁ hidle₁).step trivial)

/-! ## two requests that overlap -/

def plain : Config where
  scanner := { normalize := id, decodedSegments := fun _ => [], imageRefText := fun _ _ => .ok [] }
  scoreText := fun _ => ""

def flaggedRequest : Request where
  requestId := "r1"
  ctx := { messages := [{}], normalizedMessages := [[1]], imageScanMessages := [[]],
           inputPreprocessed := true }
  answers := [{ flagged := true, provider := "moderation" }]

def cleanRequest : Request where
  requestId := "r2"
  ctx := { messages := [{}], normalizedMessages := [[2]], imageScanMessages := [[]],
           inputPreprocessed := true }
  answers := [{ provider := "moderation" }]

/-- the second request clears the results of the first, which then passes -/
theorem flagged_request_passes :
    (exec (stageStep plain) {} [.arrive flaggedRequest, .arrive cleanRequest, .advance 0,
        .advance 0, .advance 1, .advance 1, .advance 0]).Returns 0 flaggedRequest (.ok .continue)
      ∧ (exec (stageStep plain) {} (.arrive flaggedRequest ::
          replicate 5 (.advance 0))).Returns 0 flaggedRequest (.ok .reject) :=
  ⟨⟨_, rfl, rfl, rfl⟩, _, rfl, rfl, rfl⟩

lemma undisturbed_of_pair {cfg : Config} {s : Stage} {p q : InProgress}
    (h : s.requests = [p, q]) (hq : ¬ q.Collecting) : Undisturbed cfg s (.advance 0) := by
  intro _ _ _ j q' hq' hc
  rw [h] at hq'
  match j, hq' with
  | 0, _ => rfl
  | 1, hq' =>
    cases hq'
    exact absurd hc hq

/-- the second request waits until the first has its answer -/
theorem verdicts_do_not_mix_in_turn :
    (exec (stageStep plain) {} (.arrive flaggedRequest :: .arrive cleanRequest ::
        replicate 5 (.advance 0))).Returns 0 flaggedRequest (.ok .reject)
      ∧ ∃ n, (exec (stageStep plain) {} (.arrive flaggedRequest ::
        replicate n (.advance 0))).Returns 0 flaggedRequest (.ok .reject) := by
  have hwaits : ¬ InProgress.Collecting { request := cleanRequest } := by
    intro h
    obtain ⟨todo, h⟩ := h
    cases h
  refine ⟨⟨_, rfl, rfl, rfl⟩, verdicts_do_not_mix plain {} {} (.arrive flaggedRequest ::
    .arrive cleanRequest :: replicate 5 (.advance 0)) rfl rfl ?_ 0 _ _ ⟨_, rfl, rfl, rfl⟩⟩
  exact ⟨trivial, trivial, undisturbed_of_pair rfl hwaits, undisturbed_of_pair rfl hwaits,
    undisturbed_of_pair rfl hwaits, undisturbed_of_pair rfl hwaits,
    undisturbed_of_pair rfl hwaits, trivial⟩

end AegisGate.ExternalSafety
