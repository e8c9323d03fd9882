import AegisGate.Gateway.Balancer
import AegisGate.Gateway.StreamFallback
import AegisGate.Lib.Bytes

/-!
# Streaming with the next key

`OpenAIConnector::attemptStream` in `src/gateway/connector/openai.cpp`, over the two upstream
clients.  A client cuts the body into lines and passes them on, the connector parses each of them
into a delta, and at the end of the response it decides whether another key is tried.

* `curlStreaming`, `drogonStreaming` the lines that reach `onChunk`, and how the response ends;
* `parseStreamChunk` the delta of a line;
* `respond`  the end of an attempt: `onDone` or `onError`, with the next attempt;
* `streamStep`  … while other requests use the same keys;
* `Quiet`  no line of the response reaches `onChunk`.

A `char` of the source is a `Char`.  Clock readings are inputs.
-/

namespace AegisGate.Streaming

open List Run ErrorCode

abbrev Line := List Char

/-! ## lines -/

/-- the lines of a text, each ended by a newline, and what is left behind the last of them -/
def splitLines (line : Line) : List Char → List Line × Line
  | [] => ([], line)
  | c :: cs =>
    if c = '\n' then (line :: (splitLines [] cs).1, (splitLines [] cs).2)
    else splitLines (line ++ [c]) cs

/-- a carriage return at the end is dropped -/
def chomp (line : Line) : Line := if line.getLast? = some '\r' then line.dropLast else line

/-- `ActiveTransfer`, with the lines passed to `on_chunk` so far -/
structure Transfer where
  accumulatedBody : List Char := []
  lineBuffer : Line := []
  chunks : List Line := []

def writeCallback (t : Transfer) (data : List Char) : Transfer :=
  let split := splitLines [] (t.lineBuffer ++ data)
  { accumulatedBody := t.accumulatedBody ++ data
    lineBuffer := split.2
    chunks := t.chunks ++ (split.1.map chomp).filter (· ≠ []) }

inductive Ending where
  | done (status : Nat) (body : String)
  | error (err : String)
  deriving DecidableEq

/-- the data libcurl hands over, piece by piece, and the result of the transfer -/
def curlStreaming (pieces : List (List Char)) (result : Except String Nat) : List Line × Ending :=
  let t := exec writeCallback {} pieces
  match result with
  | .error err => (t.chunks, .error ("curl error: " ++ err))
  | .ok status =>
    (t.chunks ++ if t.lineBuffer = [] then [] else [t.lineBuffer],
      .done status (String.ofList t.accumulatedBody))

/-- the lines that `std::getline` reads -/
def getLines (body : List Char) : List Line :=
  (splitLines [] body).1 ++ if (splitLines [] body).2 = [] then [] else [(splitLines [] body).2]

def drogonStreaming (response : Option (Nat × List Char)) : List Line × Ending :=
  match response with
  | none => ([], .error "Failed to reach upstream")
  | some (status, body) =>
    (((getLines body).filter (fun line => line ≠ [] && line ≠ ['\r'])).map chomp,
      .done status (String.ofList body))

inductive Upload where
  | curl (pieces : List (List Char)) (result : Except String Nat)
  | drogon (response : Option (Nat × List Char))

def sendStreaming : Upload → List Line × Ending
  | .curl pieces result => curlStreaming pieces result
  | .drogon response => drogonStreaming response

/-! ## deltas -/

/-- `nlohmann::json::parse`, and what `operator[]` of a constant object reads for a missing member,
which the library leaves undefined -/
structure Reader where
  parse : List Char → Option Json
  missing : Json

/-- an exception ends the parsing with the fields that are set -/
def readContent (delta : Json) (d : StreamDelta) : Except StreamDelta StreamDelta :=
  match delta.find? "content" with
  | none => .ok d
  | some .null => .ok d
  | some (.str content) => .ok { d with content }
  | some _ => .error d

def readToolCalls (delta : Json) (d : StreamDelta) : StreamDelta :=
  match delta.find? "tool_calls" with
  | some (.arr calls) => { d with toolCallsDelta := .arr calls }
  | _ => d

def readFinishReason (choice : Json) (d : StreamDelta) : Except StreamDelta StreamDelta :=
  match choice.find? "finish_reason" with
  | none => .ok d
  | some .null => .ok d
  | some (.str reason) => .ok { d with finishReason := reason }
  | some _ => .error d

section
variable (r : Reader)

def readChoice (choice : Json) : Except StreamDelta StreamDelta :=
  match choice with
  | .obj members => do
    let delta := (members.lookup "delta").getD r.missing
    let d ← readContent delta {}
    readFinishReason choice (readToolCalls delta d)
  | _ => .error {}

/-- the delta of an event; `choices` that is no array makes the parsing fail -/
def readEvent (j : Json) : StreamDelta :=
  match j.find? "choices" with
  | some (.arr (choice :: _)) =>
    match readChoice r choice with
    | .ok d => d
    | .error d => d
  | _ => {}

def parseStreamChunk (line : Line) : StreamDelta :=
  if line.take 6 ≠ "data: ".toList then {}
  else if line.drop 6 = "[DONE]".toList then {}
  else
    match r.parse (line.drop 6) with
    | none => {}
    | some j => readEvent r j

def carries (d : StreamDelta) : Bool :=
  d.content ≠ "" || !d.toolCallsDelta.isNull || d.finishReason ≠ ""

/-! ## usage -/

def parseUsage (body : Json) : Except Json.TypeError TokenUsage :=
  match body.find? "usage" with
  | none => .ok {}
  | some u => do
    let promptTokens ← u.valueInt "prompt_tokens" 0
    let completionTokens ← u.valueInt "completion_tokens" 0
    let totalTokens ← u.valueInt "total_tokens" 0
    return { promptTokens, completionTokens, totalTokens }

/-- the usage after a line; what cannot be read is skipped -/
def lineUsage (usage : TokenUsage) (line : Line) : TokenUsage :=
  if (Bytes.after "\"usage\"".toList line).isNone then usage
  else
    match (Bytes.after "data: ".toList line).bind r.parse with
    | none => usage
    | some j =>
      if j.contains "usage" then
        match parseUsage j with
        | .ok u => u
        | .error _ => usage
      else usage

def streamUsage (body : List Char) : TokenUsage :=
  (((getLines body).filter (fun line => line ≠ [] && line ≠ ['\r'])).map chomp).foldl (lineUsage r) {}

end

/-! ## attempts -/

inductive Elsewhere where
  | nextKey (now : Int)
  | reportSuccess (key : String)
  | reportFailure (key : String) (now : Int)

def Elsewhere.run (b : Balancer) : Elsewhere → Balancer
  | .nextKey now => (b.nextKey now).2
  | .reportSuccess key => b.reportSuccess key
  | .reportFailure key now => b.reportFailure key now

structure StreamRetryState where
  firstChunkSeen : Bool := false
  triedKeys : List String := []
  lastError : String := ""
  lastStatus : Int := 0
  maxAttempts : Nat := 1

inductive Progress where
  /-- the request is out with this key -/
  | sent (key : String)
  | done (usage : TokenUsage)
  | failed (error : GatewayError)
  deriving DecidableEq

/-- a call of `streamComplete` and the balancer of its connector -/
structure StreamCall where
  balancer : Balancer
  state : StreamRetryState
  /-- the deltas passed to the caller -/
  deltas : List StreamDelta := []
  progress : Progress

section
variable (name : String)

def surfaceExhaustion (state : StreamRetryState) : GatewayError :=
  if 0 < state.lastStatus then
    { httpStatus := state.lastStatus.toNat
      errorCode := "upstream_error"
      errorType := "Upstream " ++ name ++ " streaming failed after "
        ++ toString state.triedKeys.length ++ " key(s): " ++ state.lastError
      message := "" }
  else
    { httpStatus := noHealthyKeys.toHttpStatus
      errorCode := noHealthyKeys.toAegisCode
      errorType := noHealthyKeys.toErrorType
      message := noHealthyKeys.toDefaultMessage }

/-- the key for the next attempt is picked at the time `now` -/
def attemptStream (now : Int) (balancer : Balancer) (state : StreamRetryState)
    (deltas : List StreamDelta) : StreamCall :=
  let (key, balancer) := balancer.nextKey now
  if key = "" ∨ key ∈ state.triedKeys ∨ state.maxAttempts ≤ state.triedKeys.length then
    { balancer, state, deltas, progress := .failed (surfaceExhaustion name state) }
  else
    { balancer, state := { state with triedKeys := key :: state.triedKeys }, deltas
      progress := .sent key }

section
variable (r : Reader) (s : StreamCall)

def onChunk (line : Line) : StreamCall :=
  { s with
    state := { s.state with firstChunkSeen := true }
    deltas := s.deltas ++ if carries (parseStreamChunk r line) then [parseStreamChunk r line] else [] }

/-- the response to an attempt, when its end is reported and a key is picked, and what other
requests do in between -/
structure Response where
  upload : Upload
  reportedAt : Int
  pickedAt : Int
  between : List Elsewhere := []

def Response.asked (resp : Response) (key : String) (b : Balancer) : Balancer :=
  exec Elsewhere.run (b.reportFailure key resp.reportedAt) resp.between

/-- a failure is noted; then comes the next attempt, or the error -/
def failAttempt (name key : String) (resp : Response) (s : StreamCall) (status : Int)
    (lastError : String) (midstream : GatewayError) : StreamCall :=
  let balancer := resp.asked key s.balancer
  let state := { s.state with lastStatus := status, lastError }
  if canRetryStream state.firstChunkSeen status state.triedKeys.length state.maxAttempts then
    attemptStream name resp.pickedAt balancer state s.deltas
  else if !state.firstChunkSeen then
    { s with balancer, state, progress := .failed (surfaceExhaustion name state) }
  else { s with balancer, state, progress := .failed midstream }

def onDone (key : String) (resp : Response) (s : StreamCall)
    (status : Nat) (body : String) : StreamCall :=
  if status = 200 then
    { s with
      balancer := s.balancer.reportSuccess key
      progress := .done (streamUsage r body.toList) }
  else
    failAttempt name key resp s status
      ("Upstream error " ++ toString status ++ ": " ++ body)
      { httpStatus := status, errorCode := "upstream_error", errorType := body, message := "" }

def onError (name key : String) (resp : Response) (s : StreamCall) (err : String) : StreamCall :=
  failAttempt name key resp s (-1) ("transport error: " ++ err)
    { httpStatus := 502, errorCode := "upstream_error", errorType := err, message := "" }

def received (u : Upload) : StreamCall :=
  exec (onChunk r) s (sendStreaming u).1

def respond (resp : Response) : StreamCall :=
  match s.progress with
  | .sent key =>
    match (sendStreaming resp.upload).2 with
    | .done status body => onDone name r key resp (received r s resp.upload) status body
    | .error err => onError name key resp (received r s resp.upload) err
  | _ => s

def streamComplete (maxRetries : Int) (now : Int) (balancer : Balancer) : StreamCall :=
  attemptStream name now balancer { maxAttempts := maxAttempts maxRetries } []

inductive StreamEvent where
  | response (resp : Response)
  | elsewhere (use : Elsewhere)

def streamStep : StreamEvent → StreamCall
  | .response resp => respond name r s resp
  | .elsewhere use => { s with balancer := use.run s.balancer }

end

/-! ## the lines that reach `onChunk` -/

lemma splitLines_append (a b : List Char) : ∀ line,
    splitLines line (a ++ b) = ((splitLines line a).1 ++ (splitLines (splitLines line a).2 b).1,
        (splitLines (splitLines line a).2 b).2) := by
  induction a with
  | nil => intro line; rfl
  | cons c a ih =>
    intro line
    rw [cons_append, splitLines, splitLines]
    split
    · rw [ih []]
      rfl
    · exact ih _

lemma newline_not_mem_rest (a : List Char) : ∀ line, '\n' ∉ line → '\n' ∉ (splitLines line a).2 := by
  induction a with
  | nil => intro line h; exact h
  | cons c a ih =>
    intro line h
    rw [splitLines]
    split
    · exact ih [] not_mem_nil
    · next hc =>
      apply ih
      rw [mem_append, mem_singleton]
      exact fun hmem => hmem.elim h (hc ·.symm)

lemma splitLines_clean {a : List Char} (ha : '\n' ∉ a) (b : List Char) : ∀ line,
    splitLines line (a ++ b) = splitLines (line ++ a) b := by
  induction a with
  | nil =>
    intro line
    rw [nil_append, append_nil]
  | cons c a ih =>
    intro line
    have hc : c ≠ '\n' := fun h => ha (h ▸ mem_cons_self)
    rw [cons_append, splitLines, if_neg hc, ih fun h => ha (mem_cons_of_mem _ h),
      append_assoc, singleton_append]

lemma exec_writeCallback (pieces : List (List Char)) :
    exec writeCallback {} pieces =
      { accumulatedBody := pieces.flatten
        lineBuffer := (splitLines [] pieces.flatten).2
        chunks := ((splitLines [] pieces.flatten).1.map chomp).filter (· ≠ []) } := by
  induction pieces using List.reverseRecOn with
  | nil => rfl
  | append_singleton pieces data ih =>
    have hclean := splitLines_clean
      (newline_not_mem_rest pieces.flatten [] not_mem_nil) data []
    rw [exec_append, ih, exec_cons, exec_nil, writeCallback]
    rw [hclean, nil_append, flatten_concat, splitLines_append pieces.flatten data []]
    simp only [map_append, filter_append]

/-- the pieces between newlines: those a newline ends lose one carriage return, empty ones are
skipped, and what no newline ends comes last as it is -/
def streamLines (stream : List Char) : List Line :=
  (((stream.splitOn '\n').dropLast.map chomp) ++ (stream.splitOn '\n').getLast?.toList).filter
    (· ≠ [])

lemma splitLines_eq_splitOn (stream : List Char) : ∀ line,
    splitLines line stream = (((stream.splitOn '\n').modifyHead (line ++ ·)).dropLast,
        ((stream.splitOn '\n').modifyHead (line ++ ·)).getLastD []) := by
  induction stream with
  | nil =>
    intro line
    simp [splitLines]
  | cons c cs ih =>
    intro line
    have hne : cs.splitOn '\n' ≠ [] := splitOnP_ne_nil _ cs
    rw [splitLines]
    split
    · next hc =>
      obtain ⟨p, ps, hps⟩ := exists_cons_of_ne_nil hne
      have hsplit : (c :: cs).splitOn '\n' = [] :: p :: ps := by
        rw [← hps, hc]
        exact splitOnP_cons_eq_if_modifyHead _ _
      simp [ih, hsplit, hps]
    · next hc =>
      have hsplit : (c :: cs).splitOn '\n' = (cs.splitOn '\n').modifyHead (cons c) := by
        rw [splitOn, splitOnP_cons_eq_if_modifyHead, if_neg (by simpa using hc)]
        rfl
      rw [ih, hsplit, modifyHead_modifyHead]
      simp [Function.comp_def]

lemma curlStreaming_lines (pieces : List (List Char)) (status : Nat) :
    (curlStreaming pieces (.ok status)).1 = streamLines pieces.flatten := by
  obtain ⟨front, rest, hparts⟩ : ∃ front rest, pieces.flatten.splitOn '\n' = front ++ [rest] :=
    ⟨_, _, (dropLast_append_getLast (splitOnP_ne_nil _ _)).symm⟩
  have hhead : (front ++ [rest]).modifyHead ([] ++ ·) = front ++ [rest] := by
    cases front <;> rfl
  have hsplit : splitLines [] pieces.flatten = (front, rest) := by
    rw [splitLines_eq_splitOn, hparts, hhead]
    simp
  unfold curlStreaming streamLines
  rw [exec_writeCallback, hsplit, hparts]
  cases rest <;> simp

/-- how libcurl cuts a stream does not matter; a byte is a character here -/
theorem lines_of_stream {stream : List Char} {pieces pieces' : List (List Char)}
    (hcut : pieces.flatten = stream) (hcut' : pieces'.flatten = stream) (status status' : Nat) :
    (sendStreaming (.curl pieces (.ok status))).1 = streamLines stream ∧
      (sendStreaming (.curl pieces' (.ok status'))).1 = streamLines stream :=
  ⟨hcut ▸ curlStreaming_lines pieces status, hcut' ▸ curlStreaming_lines pieces' status'⟩

/-- … cut between a carriage return and its newline -/
theorem cut_inside_line_end :
    (sendStreaming (.curl ["a\r".toList, "\n\nb\r".toList] (.ok 200))).1
        = ["a".toList, "b\r".toList] ∧ (sendStreaming (.curl ["a\r\n\nb\r".toList] (.ok 200))).1
        = ["a".toList, "b\r".toList] :=
  lines_of_stream (by decide : _ = "a\r\n\nb\r".toList) (by decide) 200 200

def Blank (line : Line) : Prop := line = [] ∨ line = ['\r']

lemma chomp_eq_nil {line : Line} : chomp line = [] ↔ Blank line := by
  unfold chomp Blank
  split
  · next h =>
    obtain ⟨front, rfl⟩ := getLast?_eq_some_iff.1 h
    simp
  · next h =>
    refine ⟨.inl, fun hb => hb.resolve_right ?_⟩
    rintro rfl
    exact h rfl

/-- no line of the response reaches `onChunk`: all are empty, but for a carriage return -/
def Quiet : Upload → Prop
  | .curl pieces result =>
    (∀ line ∈ (splitLines [] pieces.flatten).1, Blank line)
      ∧ (result.isOk → (splitLines [] pieces.flatten).2 = [])
  | .drogon none => True
  | .drogon (some (_, body)) =>
    (∀ line ∈ (splitLines [] body).1, Blank line) ∧ Blank (splitLines [] body).2

lemma chunks_eq_nil (lines : List Line) :
    (lines.map chomp).filter (· ≠ []) = [] ↔ ∀ line ∈ lines, Blank line := by
  rw [filter_eq_nil_iff, forall_mem_map]
  simp only [ne_eq, decide_not, Bool.not_eq_eq_eq_not, Bool.not_true, decide_eq_false_iff_not,
    not_not, chomp_eq_nil]

lemma quiet_iff (u : Upload) : (sendStreaming u).1 = [] ↔ Quiet u := by
  cases u with
  | curl pieces result =>
    show (curlStreaming pieces result).1 = [] ↔ _
    unfold curlStreaming
    rw [exec_writeCallback]
    cases result with
    | error err =>
      rw [chunks_eq_nil]
      exact ⟨fun h => ⟨h, nofun⟩, fun h => h.1⟩
    | ok status =>
      rw [append_eq_nil_iff, chunks_eq_nil]
      refine and_congr Iff.rfl ⟨fun h _ => ?_, fun h => if_pos (h rfl)⟩
      by_contra hne
      rw [if_neg hne] at h
      cases h
  | drogon response =>
    cases response with
    | none => exact ⟨fun _ => trivial, fun _ => rfl⟩
    | some sb =>
      obtain ⟨status, body⟩ := sb
      show ((getLines body).filter _).map chomp = [] ↔ _
      have hblank : ∀ line : Line,
          ¬ (decide (line ≠ []) && decide (line ≠ ['\r'])) ↔ Blank line := by
        intro line
        unfold Blank
        simp only [ne_eq, Bool.and_eq_true, decide_eq_true_eq]
        tauto
      rw [map_eq_nil_iff, filter_eq_nil_iff]
      simp only [hblank]
      unfold getLines
      rw [forall_mem_append]
      refine and_congr Iff.rfl ?_
      split
      · next hnil =>
        rw [hnil]
        exact ⟨fun _ => .inl rfl, fun _ => forall_mem_nil _⟩
      · exact forall_mem_singleton

/-! ## when another key is tried -/

lemma exec_onChunk (r : Reader) (lines : List Line) : ∀ s : StreamCall,
    (exec (onChunk r) s lines).balancer = s.balancer ∧ (exec (onChunk r) s lines).state =
        { s.state with firstChunkSeen := s.state.firstChunkSeen || !lines.isEmpty } := by
  induction lines with
  | nil =>
    intro s
    rw [exec_nil, isEmpty_nil, Bool.not_true, Bool.or_false]
    exact ⟨rfl, rfl⟩
  | cons line lines ih =>
    intro s
    rw [exec_cons, isEmpty_cons, Bool.not_false, Bool.or_true]
    obtain ⟨hbalancer, hstate⟩ := ih (onChunk r s line)
    exact ⟨hbalancer, hstate⟩

/-- the attempt failed in a way worth another key, nothing was passed on, and an attempt and a key
are left -/
structure Retryable (r : Reader) (s : StreamCall) (resp : Response) (key : String) : Prop where
  sent : s.progress = .sent key
  ending : ∀ status body, (sendStreaming resp.upload).2 = .done status body →
    isRetryableStatus status
  undelivered : (received r s resp.upload).deltas = []
  budget : s.state.triedKeys.length < s.state.maxAttempts
  remains : ∃ k ∈ (resp.asked key s.balancer).recovered resp.pickedAt,
    k.healthy ∧ k.key ≠ "" ∧ k.key ∉ s.state.triedKeys

def Retries (r : Reader) (s : StreamCall) (resp : Response) : Prop :=
  ∃ key, key ∉ s.state.triedKeys ∧ (respond name r s resp).progress = .sent key

/-- the key whose turn it is has not been tried -/
def Turn (s : StreamCall) (resp : Response) (key : String) : Prop :=
  ∃ i k, Balancer.Leader ((resp.asked key s.balancer).recovered resp.pickedAt) i k
    ∧ k.key ≠ "" ∧ k.key ∉ s.state.triedKeys

lemma attemptStream_sent (now : Int) (b : Balancer) {state : StreamRetryState}
    (deltas : List StreamDelta) (hbudget : state.triedKeys.length < state.maxAttempts) :
    (∃ key, key ∉ state.triedKeys ∧ (attemptStream name now b state deltas).progress = .sent key) ↔
      (b.nextKey now).1 ≠ "" ∧ (b.nextKey now).1 ∉ state.triedKeys := by
  unfold attemptStream
  dsimp only
  split
  · next hstop =>
    refine ⟨nofun, fun h => ?_⟩
    rcases hstop with hempty | htried | hmax
    · exact absurd hempty h.1
    · exact absurd htried h.2
    · omega
  · next hgo =>
    push Not at hgo
    exact ⟨fun _ => ⟨hgo.1, hgo.2.1⟩, fun h => ⟨_, h.2, rfl⟩⟩

end

lemma canRetryStream_eq {seen : Bool} {status : Int} {tried budget : Nat}
    (hstatus : status = -1 ∨ isRetryableStatus status) (hbudget : tried < budget) :
    canRetryStream seen status tried budget = !seen := by
  unfold canRetryStream
  cases seen with
  | true => rfl
  | false =>
    rw [if_neg (by decide), if_neg (by omega)]
    split
    · rfl
    split
    · rfl
    · next h => rw [hstatus.resolve_left h]; rfl

section
variable {name : String} {r : Reader} {s : StreamCall} {resp : Response} {key : String}

lemma failAttempt_sent (name key : String) (resp : Response) {s : StreamCall} {status : Int}
    (lastError : String) (midstream : GatewayError)
    (hstatus : status = -1 ∨ isRetryableStatus status)
    (hbudget : s.state.triedKeys.length < s.state.maxAttempts) : (∃ key', key' ∉ s.state.triedKeys
        ∧ (failAttempt name key resp s status lastError midstream).progress = .sent key') ↔
      s.state.firstChunkSeen = false ∧ ((resp.asked key s.balancer).nextKey resp.pickedAt).1 ≠ ""
        ∧ ((resp.asked key s.balancer).nextKey resp.pickedAt).1 ∉ s.state.triedKeys := by
  unfold failAttempt
  dsimp only
  rw [canRetryStream_eq hstatus hbudget]
  cases s.state.firstChunkSeen with
  | true =>
    refine ⟨fun ⟨_, _, h⟩ => ?_, fun h => by cases h.1⟩
    cases h
  | false =>
    have hbudget' : ({ s.state with firstChunkSeen := false, lastStatus := status,
                                    lastError } : StreamRetryState).triedKeys.length
        < s.state.maxAttempts := hbudget
    have hsent := attemptStream_sent name resp.pickedAt (resp.asked key s.balancer) s.deltas hbudget'
    exact hsent.trans ⟨fun h => ⟨rfl, h⟩, fun h => h.2⟩

lemma respond_failAttempt (name : String) (h : Retryable r s resp key) :
    ∃ status lastError midstream, (status = -1 ∨ isRetryableStatus status) ∧ respond name r s resp
        = failAttempt name key resp (received r s resp.upload) status lastError midstream := by
  unfold respond
  rw [h.sent]
  dsimp only
  split
  · next status body hend =>
    have hretry := h.ending status body hend
    have hne : status ≠ 200 := by
      rintro rfl
      exact absurd hretry (by decide)
    unfold onDone
    rw [if_neg hne]
    exact ⟨_, _, _, .inr hretry, rfl⟩
  · exact ⟨_, _, _, .inl rfl, rfl⟩

lemma retries_iff (h : Retryable r s resp key) (hseen : s.state.firstChunkSeen = false) :
    Retries name r s resp ↔ Quiet resp.upload ∧ Turn s resp key := by
  obtain ⟨status, lastError, midstream, hstatus, hresp⟩ := respond_failAttempt name h
  obtain ⟨hbalancer, hstate⟩ := exec_onChunk r (sendStreaming resp.upload).1 s
  have hbudget : (received r s resp.upload).state.triedKeys.length
      < (received r s resp.upload).state.maxAttempts := by
    unfold received
    rw [hstate]
    exact h.budget
  have hsent := failAttempt_sent name key resp lastError midstream hstatus hbudget
  unfold received at hsent hresp
  rw [hbalancer, hstate] at hsent
  unfold Retries
  rw [hresp, hsent, hseen, Bool.false_or, Bool.not_eq_false', List.isEmpty_iff, quiet_iff]
  refine and_congr Iff.rfl ⟨fun hkey => ?_, fun ⟨i, k, hlead, hk⟩ => ?_⟩
  · obtain ⟨k0, hk0, hhealthy, _⟩ := h.remains
    obtain ⟨i, k, hlead, heq⟩ := Balancer.exists_leader hk0 hhealthy
    rw [heq] at hkey
    exact ⟨i, k, hlead, hkey⟩
  · rw [Balancer.nextKey_leader hlead]
    exact hk

end

/-! ## whole calls -/

/-- an attempt is on its way only while no line has been seen -/
def Unseen (s : StreamCall) : Prop :=
  ∀ key, s.progress = .sent key → s.state.firstChunkSeen = false

lemma unseen_attemptStream {name : String} {now : Int} {b : Balancer} {state : StreamRetryState}
    {deltas : List StreamDelta} (h : state.firstChunkSeen = false) :
    Unseen (attemptStream name now b state deltas) := by
  intro key _
  unfold attemptStream
  dsimp only
  split <;> exact h

lemma unseen_failAttempt (name key : String) (resp : Response) (s : StreamCall) (status : Int)
    (lastError : String) (midstream : GatewayError) :
    Unseen (failAttempt name key resp s status lastError midstream) := by
  unfold failAttempt
  dsimp only
  split
  · next hretry =>
    apply unseen_attemptStream
    cases hseen : s.state.firstChunkSeen with
    | false => rfl
    | true =>
      rw [hseen] at hretry
      cases hretry
  · split
    · exact nofun
    · exact nofun

variable (name : String) (r : Reader)

lemma unseen_streamStep {s : StreamCall} (h : Unseen s)
    (e : StreamEvent) : Unseen (streamStep name r s e) := by
  cases e with
  | elsewhere use => exact h
  | response resp =>
    show Unseen (respond name r s resp)
    unfold respond
    split
    · split
      · unfold onDone
        split
        · exact nofun
        · exact unseen_failAttempt _ _ _ _ _ _ _
      · exact unseen_failAttempt _ _ _ _ _ _ _
    · exact h

def Fires (s : StreamCall) : StreamEvent → Prop
  | .response resp => ∀ key, Retryable r s resp key → Retries name r s resp
  | .elsewhere _ => True

/-- where a retry is safe, the response was empty but for line ends, and the key in turn is untried
-/
def Favourable (s : StreamCall) : StreamEvent → Prop
  | .response resp => ∀ key, Retryable r s resp key → Quiet resp.upload ∧ Turn s resp key
  | .elsewhere _ => True

/-- a call makes all its safe retries exactly when, at each, no line of the response reached
`onChunk` and the balancer is not about to return a tried key -/
theorem safe_retries_iff (maxRetries now : Int) (b : Balancer) (events : List StreamEvent) :
    Along (streamStep name r) (Fires name r) (streamComplete name maxRetries now b) events ↔
      Along (streamStep name r) (Favourable r) (streamComplete name maxRetries now b) events := by
  refine along_congr (I := Unseen) (A := fun _ => True) (fun s e hs _ => ?_)
    (fun s e hs _ _ => unseen_streamStep name r hs e) events _ (unseen_attemptStream rfl)
    (fun _ _ => trivial)
  cases e with
  | elsewhere use => exact Iff.rfl
  | response resp =>
    refine forall_congr' fun key => ⟨fun hf h => ?_, fun hf h => ?_⟩
    · exact (retries_iff h (hs key h.sent)).1 (hf h)
    · exact (retries_iff h (hs key h.sent)).2 (hf h)

def noReader : Reader where
  parse := fun _ => none
  missing := .null

/-- a call with two keys of the same weight, the first of them in use -/
def twoKeys : StreamCall := streamComplete "openai" 1 0 (.ofKeys [("a", 1), ("b", 1)])

def heavyKey : StreamCall := streamComplete "openai" 1 0 (.ofKeys [("a", 5), ("b", 1)])

def limited : Response where
  upload := .curl ["slow down\n".toList] (.ok 429)
  reportedAt := 0
  pickedAt := 0

def limitedEmpty : Response where
  upload := .curl [] (.ok 429)
  reportedAt := 0
  pickedAt := 0

/-- the body of an error response uses up the retry, and so does the turn of a key that was tried -/
theorem safe_retry_missed :
    (Retryable noReader twoKeys limited "a" ∧ ¬ Retries "openai" noReader twoKeys limited)
      ∧ Retryable noReader heavyKey limitedEmpty "a"
        ∧ ¬ Retries "openai" noReader heavyKey limitedEmpty := by
  have hending : ∀ (pieces : List (List Char)) (status : Nat) (body : String),
      (curlStreaming pieces (.ok 429)).2 = .done status body → isRetryableStatus status := by
    intro pieces status body h
    cases h
    rfl
  refine ⟨⟨⟨rfl, hending _, by decide, by decide, by decide⟩, ?_⟩,
    ⟨rfl, hending _, by decide, by decide, by decide⟩, ?_⟩
  all_goals
    rintro ⟨key, _, hsent⟩
    cases hsent

end AegisGate.Streaming
