import AegisGate.Gateway.StreamRetry

/-!
# Completing with the next key

`OpenAIConnector::complete` in `src/gateway/connector/openai.cpp`: the loop over the keys of a
provider, without streaming.

* `complete`  the first key is picked and the request is sent;
* `respond`  the end of an attempt: the answer, an exception, or the next attempt;
* `Settled`  a call that is over has used up its budget or the healthy keys;
* `kind`  what an exception says, and what the error of a streamed request says.

`ClaudeConnector::complete` is the same loop.  Clock readings are inputs.
-/

namespace AegisGate.KeyRetry

open Streaming Run
open List

/-! ## the loop -/

/-- `nlohmann::json::parse` and `parseResponse`; an error is the text of the exception -/
structure Parser (ρ : Type) where
  parse : String → Except String Json
  parseResponse : Json → Except String ρ

inductive Phase (ρ : Type) where
  /-- the request is out with this key -/
  | sent (key : String)
  | returned (answer : Except UpstreamFailure ρ)

/-- the variables of a call, and the balancer of its connector -/
structure CompleteCall (ρ : Type) where
  balancer : Balancer
  tried : List String := []
  lastError : String := "no healthy API keys"
  lastStatus : Int := 0
  maxAttempts : Nat
  phase : Phase ρ

/-- the end of an attempt, and the times at which it is reported and the next key is picked -/
structure Attempt where
  ending : Ending
  reportedAt : Int
  pickedAt : Int

section
variable {ρ : Type} (name : String)

def exhausted (s : CompleteCall ρ) : UpstreamFailure :=
  if 0 < s.lastStatus then
    .upstreamStatus s.lastStatus ("Upstream " ++ name ++ " failed after "
      ++ toString s.tried.length ++ " key(s): " ++ s.lastError)
  else
    .noHealthyKeys ("No healthy API keys for " ++ name ++ " (tried "
      ++ toString s.tried.length ++ " key(s)): " ++ s.lastError)

def pick (now : Int) (s : CompleteCall ρ) : CompleteCall ρ :=
  let (key, balancer) := s.balancer.nextKey now
  if key = "" ∨ key ∈ s.tried ∨ s.maxAttempts ≤ s.tried.length then
    { s with balancer, phase := .returned (.error (exhausted name s)) }
  else { s with balancer, tried := key :: s.tried, phase := .sent key }

def Parser.answer (p : Parser ρ) (body : String) : Except UpstreamFailure ρ :=
  match p.parse body with
  | .error what => .error (.other ("Failed to parse upstream JSON: " ++ what))
  | .ok j =>
    match p.parseResponse j with
    | .error what => .error (.other what)
    | .ok response => .ok response

variable (p : Parser ρ)

def respond (s : CompleteCall ρ) (a : Attempt) : CompleteCall ρ :=
  match s.phase with
  | .returned _ => s
  | .sent key =>
    match a.ending with
    | .done status body =>
      if status = 200 then
        { s with balancer := s.balancer.reportSuccess key, phase := .returned (p.answer body) }
      else
        let lastError := "Upstream error " ++ toString status ++ ": " ++ body
        let s := { s with
          balancer := s.balancer.reportFailure key a.reportedAt
          lastStatus := status
          lastError := lastError }
        if isRetryableStatus status = false then
          { s with phase := .returned (.error (.upstreamStatus status lastError)) }
        else pick name a.pickedAt s
    | .error err =>
      pick name a.pickedAt { s with
        balancer := s.balancer.reportFailure key a.reportedAt
        lastError := "transport error: " ++ err }

def complete (maxRetries now : Int) (balancer : Balancer) : CompleteCall ρ :=
  pick name now { balancer, maxAttempts := maxAttempts maxRetries, phase := .sent "" }

end

/-! ## when a call gives up -/

def Settled {ρ : Type} (s : CompleteCall ρ) : Prop :=
  ∀ answer, s.phase = .returned answer → s.maxAttempts ≤ s.tried.length ∨
    ∀ k ∈ s.balancer.keys, k.healthy → k.key ∈ s.tried

def Attempt.retryable (a : Attempt) : Prop :=
  ∀ status body, a.ending = .done status body → isRetryableStatus status

/-- where a key is left to be tried, it is the turn of such a key: of the healthy keys with the
greatest weight after the round, the first one -/
def InTurn (b : Balancer) (tried : List String) (budget : Nat) (now : Int) : Prop :=
  tried.length < budget → (∃ k ∈ b.recovered now, k.healthy ∧ k.key ∉ tried) →
    ∃ i k, Balancer.Leader (b.recovered now) i k ∧ k.key ≠ "" ∧ k.key ∉ tried

section
variable {ρ : Type} {name : String} {p : Parser ρ} {s : CompleteCall ρ} {a : Attempt} {now : Int}

lemma settled_pick_iff :
    Settled (pick name now s) ↔ InTurn s.balancer s.tried s.maxAttempts now := by
  have hkeys : (∀ k ∈ (s.balancer.nextKey now).2.keys, k.healthy → k.key ∈ s.tried) ↔
      ∀ k ∈ s.balancer.recovered now, k.healthy → k.key ∈ s.tried := by
    have hsame := s.balancer.nextKey_keys now
    have hmem : ∀ (ks : List KeyState), (∀ k ∈ ks, k.healthy → k.key ∈ s.tried) ↔
        ∀ e ∈ ks.map KeyState.standing, e.2 → e.1 ∈ s.tried := by
      intro ks
      rw [forall_mem_map]
      rfl
    rw [hmem, hmem, hsame]
  unfold pick
  dsimp only
  split
  · next hstop =>
    constructor
    · intro hsettled hbudget hleft
      rcases hsettled _ rfl with hused | hall
      · exact absurd hbudget (Nat.not_lt.2 hused)
      · obtain ⟨k, hk, hhealthy, hnew⟩ := hleft
        exact absurd (hkeys.1 hall k hk hhealthy) hnew
    · intro hturn answer _
      by_cases hbudget : s.tried.length < s.maxAttempts
      · refine .inr (hkeys.2 ?_)
        by_contra hleft
        push Not at hleft
        obtain ⟨i, k, hlead, hne, hnew⟩ := hturn hbudget hleft
        rw [← Balancer.nextKey_leader hlead] at hne hnew
        rcases hstop with hempty | htried | hused
        · exact hne hempty
        · exact hnew htried
        · exact absurd hbudget (Nat.not_lt.2 hused)
      · exact .inl (Nat.not_lt.1 hbudget)
  · next hgo =>
    push Not at hgo
    refine ⟨fun _ _ hleft => ?_, nofun⟩
    obtain ⟨k0, hk0, hhealthy, -⟩ := hleft
    obtain ⟨i, k, hlead, hkey⟩ := Balancer.exists_leader hk0 hhealthy
    rw [hkey] at hgo
    exact ⟨i, k, hlead, hgo.1, hgo.2.1⟩

lemma respond_retryable (name : String) (p : Parser ρ) {key : String}
    (hsent : s.phase = .sent key) (hretry : a.retryable) :
    ∃ lastStatus lastError, respond name p s a = pick name a.pickedAt { s with
      balancer := s.balancer.reportFailure key a.reportedAt
      lastStatus := lastStatus
      lastError := lastError } := by
  unfold respond
  rw [hsent]
  dsimp only
  split
  · next status body hending =>
    have hstatus := hretry status body hending
    have hne : status ≠ 200 := by
      rintro rfl
      exact absurd hstatus (by decide)
    rw [if_neg hne, if_neg (by rw [hstatus]; decide)]
    exact ⟨_, _, rfl⟩
  · exact ⟨s.lastStatus, _, rfl⟩

/-- the attempt is followed by another one, unless the call has to give up -/
def RetriesOn (name : String) (p : Parser ρ) (s : CompleteCall ρ) (a : Attempt) : Prop :=
  ∀ key, s.phase = .sent key → a.retryable → Settled (respond name p s a)

/-- … because the balancer has such a key in turn -/
def Favoured (s : CompleteCall ρ) (a : Attempt) : Prop :=
  ∀ key, s.phase = .sent key → a.retryable →
    InTurn (s.balancer.reportFailure key a.reportedAt) s.tried s.maxAttempts a.pickedAt

end

/-- a call gives up only when it has to, exactly when at each pick the balancer has an untried key in
turn, if there is one -/
theorem key_retry_iff {ρ : Type} (name : String) (p : Parser ρ) (maxRetries now : Int) (b : Balancer)
    (attempts : List Attempt) : (Settled (complete name maxRetries now b : CompleteCall ρ) ∧
        Along (respond name p) (RetriesOn name p) (complete name maxRetries now b) attempts) ↔
      InTurn b [] (maxAttempts maxRetries) now ∧
        Along (respond name p) Favoured (complete name maxRetries now b) attempts := by
  refine and_congr settled_pick_iff ?_
  refine along_congr (I := fun _ => True) (A := fun _ => True) (fun s a _ _ => ?_)
    (fun _ _ _ _ _ => trivial) attempts _ trivial fun _ _ => trivial
  refine forall_congr' fun key => forall_congr' fun hsent => forall_congr' fun hretry => ?_
  obtain ⟨lastStatus, lastError, heq⟩ := respond_retryable name p hsent hretry
  rw [heq]
  exact settled_pick_iff

def anyAnswer : Parser Unit where
  parse _ := .ok .null
  parseResponse _ := .ok ()

def unevenKeys : Balancer := .ofKeys [("a", 5), ("b", 1)]

def rateLimited : Attempt where
  ending := .done 429 ""
  reportedAt := 0
  pickedAt := 0

/-- the first key is returned again, and the second one is not tried -/
theorem second_key_untried :
    (complete "openai" 2 0 unevenKeys : CompleteCall Unit).phase = .sent "a" ∧ rateLimited.retryable ∧
      ¬ Settled (respond "openai" anyAnswer (complete "openai" 2 0 unevenKeys) rateLimited) := by
  refine ⟨rfl, ?_, fun hsettled => ?_⟩
  · rintro status body h
    cases h
    rfl
  · rcases hsettled _ rfl with hused | hall
    · exact absurd hused (by decide)
    · exact absurd (hall { key := "b", weight := 1, cw := 2 } (by decide) rfl) (by decide)

/-! ## streamed and not streamed -/

open Streaming (Response Upload StreamCall StreamRetryState Reader sendStreaming)

inductive Kind where
  | noHealthyKeys
  | upstream (status : Int)
  deriving DecidableEq

def failureKind : UpstreamFailure → Option Kind
  | .noHealthyKeys _ => some .noHealthyKeys
  | .upstreamStatus status _ => some (.upstream status)
  | _ => none

def errorKind (e : GatewayError) : Option Kind :=
  if e.errorCode = ErrorCode.noHealthyKeys.toAegisCode then some .noHealthyKeys
  else if e.errorCode = "upstream_error" then some (.upstream e.httpStatus)
  else none

/-- a failure without a body: an HTTP status, or a transport error -/
def Bare : Upload → Prop
  | .curl pieces (.ok status) => pieces.flatten = [] ∧ 0 < status ∧ status ≠ 200
  | .curl pieces (.error _) => pieces.flatten = []
  | .drogon (some (status, body)) => body = [] ∧ 0 < status ∧ status ≠ 200
  | .drogon none => True

def attemptOf (r : Response) : Attempt := ⟨(sendStreaming r.upload).2, r.reportedAt, r.pickedAt⟩

def statusOf (r : Response) : Option Nat :=
  match (sendStreaming r.upload).2 with
  | .done status _ => some status
  | .error _ => none

/-- `last_status` of `complete`, which a transport error leaves alone -/
def lastSeen (outs : List Response) : Int := ((outs.filterMap statusOf).getLast?.map Int.ofNat).getD 0

/-- `last_status` of `attemptStream`, which a transport error overwrites -/
def lastOne (outs : List Response) : Int :=
  (outs.getLast?.map (fun r => ((statusOf r).map Int.ofNat).getD (-1))).getD 0

def statusKind (status : Int) : Kind := if 0 < status then .upstream status else .noHealthyKeys

/-- a transport error comes last only if no attempt had a status -/
def Clear (outs : List Response) : Prop :=
  ∀ r, outs.getLast? = some r → statusOf r = none → ∀ r' ∈ outs, statusOf r' = none

section
variable {ρ : Type} {r : Response} {outs : List Response} {midstream : GatewayError}
  {key lastError : String} {u : Upload} {status : Int}

lemma bare_quiet (h : Bare u) : (sendStreaming u).1 = [] := by
  refine (quiet_iff u).2 ?_
  cases u with
  | curl pieces result =>
    have hempty : pieces.flatten = [] := by
      cases result with
      | error err => exact h
      | ok status => exact h.1
    simp only [Quiet, hempty]
    exact ⟨nofun, fun _ => rfl⟩
  | drogon response =>
    cases response with
    | none => trivial
    | some response =>
      obtain ⟨status, body⟩ := response
      obtain ⟨rfl, -⟩ := h
      exact ⟨nofun, .inl rfl⟩

lemma bare_ending (h : Bare r.upload) :
    (∃ err, (sendStreaming r.upload).2 = .error err ∧ statusOf r = none) ∨
      ∃ status body, (sendStreaming r.upload).2 = .done status body ∧ statusOf r = some status ∧
        0 < status ∧ status ≠ 200 := by
  unfold statusOf
  cases hu : r.upload with
  | curl pieces result =>
    rw [hu] at h
    cases result with
    | error err => exact .inl ⟨_, rfl, rfl⟩
    | ok status => exact .inr ⟨status, _, rfl, rfl, h.2⟩
  | drogon response =>
    rw [hu] at h
    cases response with
    | none => exact .inl ⟨_, rfl, rfl⟩
    | some response => exact .inr ⟨response.1, _, rfl, rfl, h.2⟩

lemma lastOne_append (r : Response) :
    lastOne (outs ++ [r]) = ((statusOf r).map Int.ofNat).getD (-1) := by
  rw [lastOne, getLast?_concat]
  rfl

lemma lastSeen_append (r : Response) :
    lastSeen (outs ++ [r]) = ((statusOf r).map Int.ofNat).getD (lastSeen outs) := by
  unfold lastSeen
  cases hr : statusOf r with
  | none | some status => simp [hr]

/-- both calls after the outcomes `outs`: out with the same key, or over -/
structure Abreast (outs : List Response) (s : CompleteCall ρ) (t : StreamCall) : Prop where
  tried : t.state.triedKeys = s.tried
  budget : t.state.maxAttempts = s.maxAttempts
  phase : (∃ key, s.phase = .sent key ∧ t.progress = .sent key ∧ t.balancer = s.balancer ∧
        t.state.firstChunkSeen = false ∧ s.lastStatus = lastSeen outs ∧
        t.state.lastStatus = lastOne outs ∧ s.tried.length = outs.length + 1) ∨
      ∃ f e made, s.phase = .returned (.error f) ∧ t.progress = .failed e ∧ made <+: outs ∧
        s.tried.length = made.length ∧ failureKind f = some (statusKind (lastSeen made)) ∧
        errorKind e = some (statusKind (lastOne made))

lemma failureKind_exhausted (name : String) (s : CompleteCall ρ) :
    failureKind (exhausted name s) = some (statusKind s.lastStatus) := by
  unfold exhausted statusKind
  split <;> rfl

lemma errorKind_exhaustion (name : String) (state : StreamRetryState) :
    errorKind (surfaceExhaustion name state) = some (statusKind state.lastStatus) := by
  unfold surfaceExhaustion statusKind
  split
  · next hpos =>
    show some (Kind.upstream (state.lastStatus.toNat : Int)) = _
    rw [Int.toNat_of_nonneg hpos.le]
  · rfl

variable {name : String} {s : CompleteCall ρ} {b : Balancer} {state : StreamRetryState}
  {deltas : List StreamDelta} {now : Int}

lemma abreast_pick (hbalancer : b = s.balancer) (htried : state.triedKeys = s.tried)
    (hbudget : state.maxAttempts = s.maxAttempts) (hunseen : state.firstChunkSeen = false)
    (hseen : s.lastStatus = lastSeen outs) (hone : state.lastStatus = lastOne outs)
    (hlength : s.tried.length = outs.length) :
    Abreast outs (pick name now s) (attemptStream name now b state deltas) := by
  unfold pick attemptStream
  dsimp only
  rw [hbalancer, htried, hbudget]
  split
  · refine ⟨htried, hbudget, .inr ⟨_, _, outs, rfl, rfl, prefix_refl _, hlength, ?_, ?_⟩⟩
    · rw [failureKind_exhausted, hseen]
    · rw [errorKind_exhaustion, hone]
  · refine ⟨rfl, rfl, .inl ⟨_, rfl, rfl, rfl, hunseen, hseen, hone, ?_⟩⟩
    rw [length_cons, hlength]

lemma received_bare (rd : Reader) (t : StreamCall) (h : Bare u) : received rd t u = t := by
  unfold received
  rw [bare_quiet h]
  rfl

variable {p : Parser ρ} {rd : Reader} {t : StreamCall}

lemma abreast_over {f : UpstreamFailure} (htried : t.state.triedKeys = s.tried)
    (hbudget : t.state.maxAttempts = s.maxAttempts) (hunseen : t.state.firstChunkSeen = false)
    (hno : canRetryStream false status s.tried.length s.maxAttempts = false)
    (hs : s.phase = .returned (.error f)) (hlength : s.tried.length = outs.length)
    (hf : failureKind f = some (statusKind (lastSeen outs))) (hone : status = lastOne outs) :
    Abreast outs s (failAttempt name key r t status lastError midstream) := by
  unfold failAttempt
  dsimp only
  rw [hunseen, htried, hbudget, hno, if_neg Bool.false_ne_true, Bool.not_false, if_pos rfl]
  refine ⟨rfl, rfl, .inr ⟨f, _, outs, hs, rfl, prefix_refl _, hlength, hf, ?_⟩⟩
  rw [errorKind_exhaustion, ← hone]

lemma abreast_retry (hstatus : status = -1 ∨ isRetryableStatus status)
    (hbalancer : r.asked key t.balancer = s.balancer) (htried : t.state.triedKeys = s.tried)
    (hbudget : t.state.maxAttempts = s.maxAttempts) (hunseen : t.state.firstChunkSeen = false)
    (hseen : s.lastStatus = lastSeen outs) (hone : status = lastOne outs)
    (hlength : s.tried.length = outs.length) : Abreast outs (pick name r.pickedAt s)
      (failAttempt name key r t status lastError midstream) := by
  by_cases hroom : s.tried.length < s.maxAttempts
  · have hretry : canRetryStream false status s.tried.length s.maxAttempts = !false :=
      canRetryStream_eq hstatus hroom
    unfold failAttempt
    dsimp only
    rw [hunseen, htried, hbudget, hretry, Bool.not_false, if_pos rfl]
    exact abreast_pick hbalancer rfl rfl rfl hseen hone hlength
  · have hno : canRetryStream false status s.tried.length s.maxAttempts = false := by
      unfold canRetryStream
      rw [if_neg Bool.false_ne_true, if_pos (Nat.not_lt.1 hroom)]
    have hpick : pick name r.pickedAt s = { s with
        balancer := (s.balancer.nextKey r.pickedAt).2
        phase := .returned (.error (exhausted name s)) } :=
      if_pos (.inr (.inr (Nat.not_lt.1 hroom)))
    rw [hpick]
    refine abreast_over htried hbudget hunseen hno rfl hlength ?_ hone
    rw [failureKind_exhausted, hseen]

lemma Abreast.step (h : Abreast outs s t) (hbare : Bare r.upload) (halone : r.between = []) :
    Abreast (outs ++ [r]) (respond name p s (attemptOf r)) (Streaming.respond name rd t r) := by
  obtain ⟨htried, hbudget, hsent | hover⟩ := h
  · obtain ⟨key, hs, ht, hbalancer, hunseen, hseen, hone, hlength⟩ := hsent
    have hasked : r.asked key t.balancer = s.balancer.reportFailure key r.reportedAt := by
      rw [Response.asked, halone, hbalancer]
      rfl
    have hcount : s.tried.length = (outs ++ [r]).length := by
      rw [hlength, length_append, length_singleton]
    unfold respond Streaming.respond
    rw [hs, ht]
    rw [received_bare rd t hbare]
    rcases bare_ending hbare with ⟨err, hending, hstatus⟩ | ⟨status, body, hending, hstatus, hpos, hne⟩
    · simp only [attemptOf, hending]
      refine abreast_retry (.inl rfl) hasked htried hbudget hunseen ?_ ?_ hcount
      · rw [lastSeen_append, hstatus]
        exact hseen
      · rw [lastOne_append, hstatus]
        rfl
    · have hseen' : (status : Int) = lastSeen (outs ++ [r]) := by
        rw [lastSeen_append, hstatus]
        rfl
      have hone' : (status : Int) = lastOne (outs ++ [r]) := by
        rw [lastOne_append, hstatus]
        rfl
      simp only [attemptOf, hending]
      unfold onDone
      rw [if_neg hne, if_neg hne]
      cases hretry : isRetryableStatus status with
      | true =>
        exact abreast_retry (.inr hretry) hasked htried hbudget hunseen hseen' hone' hcount
      | false =>
        refine abreast_over htried hbudget hunseen ?_ rfl hcount ?_ hone'
        · unfold canRetryStream
          rw [if_neg Bool.false_ne_true, if_neg (show ¬ ((status : Int) = 0) by omega),
            if_neg (show ¬ ((status : Int) = -1) by omega), hretry, ite_self]
        · rw [← hseen', statusKind, if_pos (show (0 : Int) < status by omega)]
          rfl
  · obtain ⟨f, e, made, hs, ht, hmade, hrest⟩ := hover
    have hstays : respond name p s (attemptOf r) = s := by
      unfold respond
      rw [hs]
    have hstays' : Streaming.respond name rd t r = t := by
      unfold Streaming.respond
      rw [ht]
    rw [hstays, hstays']
    exact ⟨htried, hbudget, .inr ⟨f, e, made, hs, ht, hmade.trans (prefix_append _ _), hrest⟩⟩

lemma abreast_run (name : String) (p : Parser ρ) (rd : Reader) (maxRetries now : Int) (b : Balancer)
    (outs : List Response) : (∀ r ∈ outs, Bare r.upload ∧ r.between = []) →
    Abreast outs (exec (respond name p) (complete name maxRetries now b) (outs.map attemptOf))
      (exec (Streaming.respond name rd) (Streaming.streamComplete name maxRetries now b) outs) := by
  induction outs using List.reverseRecOn with
  | nil =>
    intro _
    exact abreast_pick rfl rfl rfl rfl rfl rfl rfl
  | append_singleton outs r ih =>
    intro hbare
    have hlast := hbare r (by simp)
    rw [map_append, exec_append, exec_append]
    exact (ih fun r' hr' => hbare r' (mem_append_left _ hr')).step hlast.1 hlast.2

lemma lastSeen_pos (hbare : ∀ r ∈ outs, Bare r.upload) :
    0 < lastSeen outs ↔ ∃ r ∈ outs, statusOf r ≠ none := by
  induction outs using List.reverseRecOn with
  | nil =>
    refine ⟨fun h => absurd h (by decide), fun ⟨r, hr, _⟩ => ?_⟩
    cases hr
  | append_singleton outs r ih =>
    have ih := ih fun r' hr' => hbare r' (mem_append_left _ hr')
    rw [lastSeen_append]
    rcases bare_ending (hbare r (by simp)) with ⟨_, -, hr⟩ | ⟨status, _, -, hr, hpos, -⟩
    · rw [hr]
      refine ih.trans ⟨fun ⟨r', hr', h⟩ => ⟨r', mem_append_left _ hr', h⟩, fun ⟨r', hr', h⟩ => ?_⟩
      rcases mem_append.1 hr' with hr' | hr'
      · exact ⟨r', hr', h⟩
      · rw [mem_singleton.1 hr'] at h
        exact absurd hr h
    · rw [hr]
      refine ⟨fun _ => ⟨r, by simp, by simp [hr]⟩, fun _ => ?_⟩
      show (0 : Int) < status
      omega

/-- the last HTTP status is the last outcome, or there was none -/
lemma same_kind_iff (hbare : ∀ r ∈ outs, Bare r.upload) :
    statusKind (lastSeen outs) = statusKind (lastOne outs) ↔ Clear outs := by
  rcases eq_nil_or_concat' outs with rfl | ⟨outs, r, rfl⟩
  · refine ⟨fun _ r hr => ?_, fun _ => rfl⟩
    cases hr
  · have hlast : Clear (outs ++ [r]) ↔
        (statusOf r = none → ∀ r' ∈ outs ++ [r], statusOf r' = none) := by
      unfold Clear
      rw [getLast?_concat]
      exact ⟨fun h => h r rfl, fun h r' hr' => Option.some.inj hr' ▸ h⟩
    rw [hlast, lastOne_append]
    cases hr : statusOf r with
    | some status =>
      rw [lastSeen_append, hr]
      exact ⟨fun _ h => by simp at h, fun _ => rfl⟩
    | none =>
      have hkind : statusKind (lastSeen (outs ++ [r])) = .noHealthyKeys ↔
          ¬ 0 < lastSeen (outs ++ [r]) := by
        unfold statusKind
        split
        · next hpos => exact ⟨nofun, fun h => absurd hpos h⟩
        · next hnot => exact ⟨fun _ => hnot, fun _ => rfl⟩
      refine hkind.trans ?_
      rw [lastSeen_pos hbare]
      push Not
      exact ⟨fun h _ => h, fun h => h rfl⟩

end

/-- Both calls try the same keys in the same order. With an outcome for each key tried, they report
the same kind of error exactly when no transport error came last after an HTTP status. -/
theorem same_failure_iff {ρ : Type} (name : String) (p : Parser ρ) (rd : Reader)
    (maxRetries now : Int) (b : Balancer) (outs : List Response)
    (hbare : ∀ r ∈ outs, Bare r.upload ∧ r.between = []) :
    let s := exec (respond name p) (complete name maxRetries now b) (outs.map attemptOf)
    let t := exec (Streaming.respond name rd) (Streaming.streamComplete name maxRetries now b) outs
    t.state.triedKeys = s.tried ∧ ((∃ key, s.phase = .sent key ∧ t.progress = .sent key) ∨
        ∃ f e, s.phase = .returned (.error f) ∧ t.progress = .failed e) ∧
      (s.tried.length = outs.length →
        ((∃ f e, s.phase = .returned (.error f) ∧ t.progress = .failed e ∧
          failureKind f = errorKind e) ↔ Clear outs)) := by
  intro s t
  obtain ⟨htried, -, hphase⟩ := abreast_run name p rd maxRetries now b outs hbare
  have hkind := same_kind_iff fun r hr => (hbare r hr).1
  rcases hphase with ⟨key, hs, ht, -, -, -, -, hlength⟩ | ⟨f, e, made, hs, ht, hmade, hlength, hf, he⟩
  · refine ⟨htried, .inl ⟨key, hs, ht⟩, fun hall => ?_⟩
    have hmore : s.tried.length = outs.length + 1 := hlength
    omega
  · refine ⟨htried, .inr ⟨f, e, hs, ht⟩, fun hall => ?_⟩
    have hmade : made = outs := hmade.eq_of_length (hlength.symm.trans hall)
    rw [hmade] at hf he
    rw [← hkind]
    constructor
    · rintro ⟨f', e', hs', ht', hsame⟩
      cases hs.symm.trans hs'
      cases ht.symm.trans ht'
      rw [hf, he] at hsame
      exact Option.some.inj hsame
    · intro hsame
      exact ⟨f, e, hs, ht, by rw [hf, he, hsame]⟩

def evenKeys : Balancer := .ofKeys [("a", 1), ("b", 1)]

def limited : Response := { upload := .drogon (some (429, [])), reportedAt := 0, pickedAt := 0 }

def unreachable : Response := { upload := .drogon none, reportedAt := 0, pickedAt := 0 }

/-- after a 429 and a transport error `complete` reports the 429, `streamComplete` no healthy keys
-/
theorem transport_error_hides_status :
    ∃ f e, (exec (respond "openai" anyAnswer) (complete "openai" 1 0 evenKeys)
          ([limited, unreachable].map attemptOf)).phase = .returned (.error f) ∧
      (exec (Streaming.respond "openai" Streaming.noReader)
          (Streaming.streamComplete "openai" 1 0 evenKeys) [limited, unreachable]).progress =
        .failed e ∧ failureKind f = some (.upstream 429) ∧ errorKind e = some .noHealthyKeys :=
  ⟨_, _, rfl, rfl, rfl, rfl⟩

/-- in the other order both report the 429 -/
theorem status_last_same_failure :
    ∃ f e, (exec (respond "openai" anyAnswer) (complete "openai" 1 0 evenKeys)
          ([unreachable, limited].map attemptOf)).phase = .returned (.error f) ∧
      (exec (Streaming.respond "openai" Streaming.noReader)
          (Streaming.streamComplete "openai" 1 0 evenKeys) [unreachable, limited]).progress =
        .failed e ∧ failureKind f = errorKind e := by
  have hbare : ∀ r ∈ [unreachable, limited], Bare r.upload ∧ r.between = [] := by
    intro r hr
    rcases mem_cons.1 hr with rfl | hr
    · exact ⟨trivial, rfl⟩
    · rw [mem_singleton.1 hr]
      exact ⟨⟨rfl, by decide, by decide⟩, rfl⟩
  have hclear : Clear [unreachable, limited] := by
    intro r hr hnone
    cases hr
    cases hnone
  exact ((same_failure_iff "openai" anyAnswer Streaming.noReader 1 0 evenKeys _ hbare).2.2 rfl).2 hclear

end AegisGate.KeyRetry
