import AegisGate.Gateway.CircuitBreaker
import AegisGate.Gateway.StreamFallback
import AegisGate.Lib.Run

/-!
# A streamed request and its fallbacks, callback by callback

`FallbackManager::streamWithFallback` starts a connector and returns; what follows happens in the
callbacks of the connectors, at once or later.  Here a callback is one step of a session, and any
connector that has not called its last callback may be the next.  Nothing comes after a connector is
started in `tryStreamModel`, so a connector that calls back before its `streamComplete` returns is one
whose callbacks are the next steps.

* `BreakerUse`  the circuit breaker as one request sees it, between the calls of others;
* `Session`  the shared state of the callbacks, the connectors at work and what was called;
* `Turn`  some connector calls back;
* `Executed`  a run of `executeWithFallback` against the same breaker.

However the connectors take turns, the session reports one end and passes on the deltas of one model
(`stream_exactly_once`).  It goes the way of `executeWithFallback` when a model that fails does so
before its first delta (`fallback_paths_agree`).
-/

namespace AegisGate

open List Run

namespace FallbackSession

/-! ## the breaker, shared with other requests -/

/-- the calls that other requests make before the `n`-th one of this request, and the clock then -/
structure Outside where
  others : ℕ → List BreakerCall := fun _ => []
  access : ℕ → Int
  check : ℕ → Int

structure BreakerUse where
  breaker : CircuitBreaker
  calls : ℕ := 0

namespace BreakerUse

variable (o : Outside) (u : BreakerUse) (model : String)

def ready : CircuitBreaker := exec CircuitBreaker.call u.breaker (o.others u.calls)

def allowRequest : Bool × BreakerUse :=
  let answer := (u.ready o).allowRequest model (o.access u.calls) (o.check u.calls)
  (answer.1, ⟨answer.2, u.calls + 1⟩)

def recordSuccess : BreakerUse :=
  ⟨(u.ready o).recordSuccess model (o.access u.calls), u.calls + 1⟩

def recordFailure : BreakerUse :=
  ⟨(u.ready o).recordFailure model (o.access u.calls) (o.check u.calls), u.calls + 1⟩

end BreakerUse

/-! ## sessions -/

/-- a connector that was started: the deltas it still has, and its last callback -/
structure Running where
  idx : ℕ
  model : String
  deltas : List StreamDelta
  ending : Except StreamError TokenUsage

/-- a connector is started, or a callback of the client called; `idx` is the model's place among the
candidates -/
inductive Event where
  | started (idx : ℕ) (model : String)
  | delta (idx : ℕ) (model : String) (d : StreamDelta)
  | done (idx : ℕ) (model : String) (usage : TokenUsage)
  | failed (err : StreamError)

open Event

def Event.isStart : Event → Bool
  | .started _ _ => true
  | _ => false

def Event.isDelta : Event → Bool
  | .delta _ _ _ => true
  | _ => false

def Event.isEnd : Event → Bool
  | .done _ _ _ => true
  | .failed _ => true
  | _ => false

/-- what a request meets: `streamComplete i` is what the connector of candidate `i` would do -/
structure Setting where
  manager : FallbackManager
  primaryModel : String
  outside : Outside
  streamComplete : ℕ → List StreamDelta × Except StreamError TokenUsage

structure Session where
  use : BreakerUse
  chunksSent : Bool := false
  state : FallbackManager.StreamFallbackState := {}
  running : List Running := []
  log : List Event := []

open FallbackSession.Session

def Session.begin (s : Session) (use : BreakerUse) (r : Running) : Session :=
  { s with
    use := use
    state := { s.state with anyAttempt := true }
    running := s.running ++ [r]
    log := s.log ++ [.started r.idx r.model] }

section
variable (w : Setting)

def Setting.candidates : List String := w.primaryModel :: w.manager.getChain w.primaryModel

def Setting.connector (idx : ℕ) (model : String) : Running :=
  ⟨idx, model, (w.streamComplete idx).1, (w.streamComplete idx).2⟩

/-- the loop over the candidates, of which the one at `idx` is the next -/
def tryStreamModel : List String → ℕ → Session → Session
  | [], _, s => { s with log := s.log ++ [.failed s.state.exhausted] }
  | model :: rest, idx, s =>
    let answer := s.use.allowRequest w.outside model
    if answer.1 = false then
      tryStreamModel rest (idx + 1)
        { s with use := answer.2, state := { s.state with anyCircuitOpen := true } }
    else if (w.manager.registry.findByModel model).isNone then
      tryStreamModel rest (idx + 1) { s with use := answer.2 }
    else
      s.begin answer.2 (w.connector idx model)

def streamWithFallback (b : CircuitBreaker) : Session :=
  tryStreamModel w w.candidates 0 { use := ⟨b, 0⟩ }

/-- the next callback of the connector at `pos` of those at work -/
def callback (pos : ℕ) (s : Session) : Session :=
  match s.running[pos]? with
  | none => s
  | some r =>
    match r.deltas, r.ending with
    | d :: ds, _ =>
      { s with
        chunksSent := true
        running := s.running.set pos { r with deltas := ds }
        log := s.log ++ [.delta r.idx r.model d] }
    | [], .ok usage =>
      { s with
        use := s.use.recordSuccess w.outside r.model
        running := s.running.eraseIdx pos
        log := s.log ++ [.done r.idx r.model usage] }
    | [], .error err =>
      let s' : Session :=
        { s with
          use := s.use.recordFailure w.outside r.model
          state := { s.state with lastErr := err }
          running := s.running.eraseIdx pos }
      if s.chunksSent then { s' with log := s.log ++ [.failed err] }
      else tryStreamModel w (w.candidates.drop (r.idx + 1)) (r.idx + 1) s'

def Turn (s t : Session) : Prop := ∃ pos < s.running.length, t = callback w pos s

end

/-! ## one connector at a time -/

/-- the session waits for one connector, and only its deltas were passed on -/
structure Waiting (s : Session) (r : Running) : Prop where
  running : s.running = [r]
  log : ∃ (starts : List Event) (ds : List StreamDelta), (∀ e ∈ starts, e.isStart) ∧
    s.log = starts ++ ds.map (.delta r.idx r.model) ∧ s.chunksSent = !ds.isEmpty

/-- the client was told the end, after the deltas of one model -/
structure Ended (s : Session) : Prop where
  running : s.running = []
  log : ∃ (starts : List Event) (idx : ℕ) (model : String) (ds : List StreamDelta) (e : Event),
    (∀ e ∈ starts, e.isStart) ∧ s.log = starts ++ ds.map (.delta idx model) ++ [e] ∧ e.isEnd

section
variable {w : Setting} {s t : Session} {r : Running}

lemma turn_of_running (hr : s.running = [r]) : Turn w s t ↔ t = callback w 0 s := by
  constructor
  · rintro ⟨pos, hpos, rfl⟩
    rw [hr, length_singleton] at hpos
    rw [show pos = 0 by omega]
  · rintro rfl
    exact ⟨0, by simp [hr], rfl⟩

lemma stuck_iff : Stuck (Turn w) s ↔ s.running = [] := by
  constructor
  · intro h
    by_contra hne
    exact h _ ⟨0, length_pos_iff.2 hne, rfl⟩
  · rintro hr t ⟨pos, hpos, -⟩
    rw [hr] at hpos
    exact absurd hpos (Nat.not_lt_zero pos)

lemma callback_delta {d : StreamDelta} {ds : List StreamDelta} (hr : s.running = [r])
    (hds : r.deltas = d :: ds) :
    callback w 0 s = { s with
      chunksSent := true
      running := [{ r with deltas := ds }]
      log := s.log ++ [.delta r.idx r.model d] } := by
  simp [callback, hr, hds]

lemma callback_done {usage : TokenUsage} (hr : s.running = [r]) (hds : r.deltas = [])
    (hend : r.ending = .ok usage) :
    callback w 0 s = { s with
      use := s.use.recordSuccess w.outside r.model
      running := []
      log := s.log ++ [.done r.idx r.model usage] } := by
  simp [callback, hr, hds, hend]

lemma callback_failed {err : StreamError} (hr : s.running = [r]) (hds : r.deltas = [])
    (hend : r.ending = .error err) : callback w 0 s =
      let s' : Session :=
        { s with
          use := s.use.recordFailure w.outside r.model
          state := { s.state with lastErr := err }
          running := [] }
      if s.chunksSent then { s' with log := s.log ++ [.failed err] }
      else tryStreamModel w (w.candidates.drop (r.idx + 1)) (r.idx + 1) s' := by
  simp [callback, hr, hds, hend]

lemma tryStreamModel_waits (w : Setting) (rest : List String) : ∀ idx (s : Session),
    s.running = [] → s.chunksSent = false → (∀ e ∈ s.log, e.isStart) →
      (∃ r, Waiting (tryStreamModel w rest idx s) r) ∨ Ended (tryStreamModel w rest idx s) := by
  induction rest with
  | nil =>
    intro idx s hrunning hsent hlog
    exact .inr ⟨hrunning, s.log, 0, "", [], .failed s.state.exhausted, hlog, by simp [tryStreamModel],
      rfl⟩
  | cons model rest ih =>
    intro idx s hrunning hsent hlog
    rw [tryStreamModel]
    dsimp only
    split
    · exact ih _ _ hrunning hsent hlog
    split
    · exact ih _ _ hrunning hsent hlog
    exact .inl ⟨w.connector idx model, by simp [begin, hrunning], _, [],
      forall_mem_append.2 ⟨hlog, forall_mem_singleton.2 rfl⟩, (append_nil _).symm, hsent⟩

lemma Waiting.callback (h : Waiting s r) :
    (∃ r', Waiting (callback w 0 s) r') ∨ Ended (callback w 0 s) := by
  obtain ⟨hr, starts, ds, hstarts, hlog, hsent⟩ := h
  cases hdeltas : r.deltas with
  | cons d rest =>
    rw [callback_delta hr hdeltas]
    refine .inl ⟨_, rfl, starts, ds ++ [d], hstarts, ?_, by simp⟩
    simp [hlog]
  | nil =>
    cases hend : r.ending with
    | ok usage =>
      rw [callback_done hr hdeltas hend]
      exact .inr ⟨rfl, starts, r.idx, r.model, ds, _, hstarts, by rw [hlog], rfl⟩
    | error err =>
      rw [callback_failed hr hdeltas hend]
      dsimp only
      split
      · exact .inr ⟨rfl, starts, r.idx, r.model, ds, _, hstarts, by rw [hlog], rfl⟩
      · next hnone =>
        -- nothing was passed on, so the log has starts only and the loop goes on from there
        have hempty : ds = [] := by
          rw [hsent] at hnone
          simpa using hnone
        refine tryStreamModel_waits w _ _ _ rfl (Bool.not_eq_true _ ▸ hnone) ?_
        rw [hlog, hempty, map_nil, append_nil]
        exact hstarts

lemma waits_or_ended (b : CircuitBreaker)
    (hs : Reach (Turn w) (streamWithFallback w b) s) : (∃ r, Waiting s r) ∨ Ended s := by
  refine Reach.inv (I := fun s => (∃ r, Waiting s r) ∨ Ended s) (fun s t h hst => ?_) hs
    (tryStreamModel_waits w _ _ _ rfl rfl nofun)
  rcases h with ⟨r, hr⟩ | hended
  · rw [(turn_of_running hr.running).1 hst]
    exact hr.callback
  · exact absurd hst (stuck_iff.2 hended.running t)

end

/-! ## exactly once, from one model -/

/-- what the client is told: one end, deltas of one model, and no model started after the first of
them -/
structure Orderly (log : List Event) : Prop where
  once : log.countP isEnd ≤ 1
  single : ∀ i m d j n d', .delta i m d ∈ log → .delta j n d' ∈ log → i = j ∧ m = n
  last : log.Pairwise (fun e e' => e.isDelta → e'.isStart = false)

section
variable {starts rest : List Event} (ds : List StreamDelta) (idx : ℕ) (model : String)

lemma Event.of_isStart {e : Event} (h : e.isStart) : e.isDelta = false ∧ e.isEnd = false := by
  cases e with
  | started idx model => exact ⟨rfl, rfl⟩
  | delta idx model d | done idx model usage | failed err => cases h

lemma Event.isStart_of_isEnd {e : Event} (h : e.isEnd) : e.isStart = false := by
  cases hstart : e.isStart with
  | false => rfl
  | true => rw [(of_isStart hstart).2] at h; cases h

lemma starts_countP (h : ∀ e ∈ starts, e.isStart) : starts.countP isEnd = 0 := by
  rw [countP_eq_zero]
  intro e he
  rw [(of_isStart (h e he)).2]
  exact Bool.false_ne_true

lemma deltas_countP : (ds.map (delta idx model)).countP isEnd = 0 := by
  rw [countP_eq_zero]
  intro e he
  obtain ⟨d, -, rfl⟩ := mem_map.1 he
  exact Bool.false_ne_true

lemma orderly_of_shape (hstarts : ∀ e ∈ starts, e.isStart)
    (hrest : ∀ e ∈ rest, e.isEnd) (hlength : rest.length ≤ 1) :
    Orderly (starts ++ ds.map (.delta idx model) ++ rest) := by
  have hdelta : ∀ i m d, .delta i m d ∈ starts ++ ds.map (.delta idx model) ++ rest →
      i = idx ∧ m = model := by
    intro i m d hmem
    rcases mem_append.1 hmem with hmem | hmem
    · rcases mem_append.1 hmem with hmem | hmem
      · exact absurd (hstarts _ hmem) Bool.false_ne_true
      · obtain ⟨d', -, he⟩ := mem_map.1 hmem
        cases he
        exact ⟨rfl, rfl⟩
    · exact absurd (hrest _ hmem) Bool.false_ne_true
  refine ⟨?_, fun i m d j n d' hi hj => ?_, ?_⟩
  · rw [countP_append, countP_append, starts_countP hstarts, deltas_countP]
    exact le_trans (by simpa using countP_le_length) hlength
  · obtain ⟨rfl, rfl⟩ := hdelta i m d hi
    obtain ⟨rfl, rfl⟩ := hdelta j n d' hj
    exact ⟨rfl, rfl⟩
  · rw [append_assoc, pairwise_append]
    have htail : ∀ e ∈ ds.map (.delta idx model) ++ rest, e.isStart = false := by
      intro e he
      rcases mem_append.1 he with he | he
      · obtain ⟨d, -, rfl⟩ := mem_map.1 he
        rfl
      · exact isStart_of_isEnd (hrest e he)
    refine ⟨pairwise_of_forall_mem_list fun e he e' _ hdelta => ?_,
      pairwise_of_forall_mem_list fun e _ e' he' _ => htail e' he',
      fun e _ e' he' _ => htail e' he'⟩
    rw [(of_isStart (hstarts e he)).1] at hdelta
    cases hdelta

end

/-! ## connectors that call back at once -/

def drained (s : Session) (r : Running) : Session :=
  { s with
    chunksSent := s.chunksSent || !r.deltas.isEmpty
    running := [{ r with deltas := [] }]
    log := s.log ++ r.deltas.map (.delta r.idx r.model) }

/-- the whole session, when connectors call all their callbacks before `streamComplete` returns -/
def atOnce (w : Setting) : List String → ℕ → Session → Session
  | [], _, s => { s with log := s.log ++ [.failed s.state.exhausted] }
  | model :: rest, idx, s =>
    let answer := s.use.allowRequest w.outside model
    if answer.1 = false then
      atOnce w rest (idx + 1)
        { s with use := answer.2, state := { s.state with anyCircuitOpen := true } }
    else if (w.manager.registry.findByModel model).isNone then
      atOnce w rest (idx + 1) { s with use := answer.2 }
    else
      let r := w.connector idx model
      let s := drained (s.begin answer.2 r) r
      match r.ending with
      | .ok usage =>
        { s with
          use := s.use.recordSuccess w.outside model
          running := []
          log := s.log ++ [.done idx model usage] }
      | .error err =>
        let s' : Session :=
          { s with
            use := s.use.recordFailure w.outside model
            state := { s.state with lastErr := err }
            running := [] }
        if s.chunksSent then { s' with log := s.log ++ [.failed err] }
        else atOnce w rest (idx + 1) s'

section
variable {w : Setting} {P : Session → Prop} {s : Session} {r : Running}

lemma ends_of_callback (hr : s.running = [r]) (h : Ends (Turn w) P (callback w 0 s)) :
    Ends (Turn w) P s := by
  refine Ends.of_step ((turn_of_running hr).2 rfl) fun t ht => ?_
  rw [(turn_of_running hr).1 ht]
  exact h

lemma ends_of_drained (ds : List StreamDelta) : ∀ (s : Session) (r : Running), s.running = [r] →
    r.deltas = ds → Ends (Turn w) P (drained s r) → Ends (Turn w) P s := by
  induction ds with
  | nil =>
    intro s r hr hds h
    have heq : drained s r = s := by
      obtain ⟨use, sent, state, running, log⟩ := s
      obtain ⟨idx, model, deltas, ending⟩ := r
      cases hr
      cases hds
      simp [drained]
    rwa [heq] at h
  | cons d ds ih =>
    intro s r hr hds h
    refine ends_of_callback hr ?_
    rw [callback_delta hr hds]
    refine ih _ _ rfl rfl ?_
    have heq : drained s r = drained
        { s with chunksSent := true, running := [{ r with deltas := ds }],
                 log := s.log ++ [.delta r.idx r.model d] } { r with deltas := ds } := by
      simp [drained, hds]
    rwa [heq] at h

/-- whenever the connectors call back, the session ends as it does when they call back at once -/
lemma tryStreamModel_ends (w : Setting) (rest : List String) : ∀ idx (s : Session),
    w.candidates.drop idx = rest → s.running = [] →
      Ends (Turn w) (· = atOnce w rest idx s) (tryStreamModel w rest idx s) := by
  induction rest with
  | nil =>
    intro idx s _ hrunning
    exact Ends.of_stuck (stuck_iff.2 hrunning) rfl
  | cons model rest ih =>
    intro idx s hdrop hrunning
    have hrest : w.candidates.drop (idx + 1) = rest := by
      rw [← tail_drop, hdrop, tail_cons]
    rw [tryStreamModel, atOnce]
    dsimp only
    split
    · exact ih _ _ hrest hrunning
    split
    · exact ih _ _ hrest hrunning
    have hr : (s.begin (s.use.allowRequest w.outside model).2 (w.connector idx model)).running =
        [w.connector idx model] := by
      simp [begin, hrunning]
    refine ends_of_drained _ _ _ hr rfl (ends_of_callback rfl ?_)
    cases hend : (w.connector idx model).ending with
    | ok usage =>
      rw [callback_done (r := { w.connector idx model with deltas := [] }) rfl rfl hend]
      exact Ends.of_stuck (stuck_iff.2 rfl) rfl
    | error err =>
      rw [callback_failed (r := { w.connector idx model with deltas := [] }) rfl rfl hend]
      dsimp only
      split
      · exact Ends.of_stuck (stuck_iff.2 rfl) rfl
      · show Ends _ _ (tryStreamModel w (w.candidates.drop (idx + 1)) (idx + 1) _)
        rw [hrest]
        exact ih _ _ hrest rfl

end

/-- every run ends; the client is told one end, with deltas of one model and no model started after
the first -/
theorem stream_exactly_once (w : Setting) (b : CircuitBreaker) :
    Halts (Turn w) (streamWithFallback w b) ∧ ∀ s, Reach (Turn w) (streamWithFallback w b) s →
        Orderly s.log ∧ (Stuck (Turn w) s → s.log.countP isEnd = 1) := by
  refine ⟨(tryStreamModel_ends w _ 0 _ rfl rfl).1, fun s hs => ?_⟩
  rcases waits_or_ended b hs with ⟨r, hr, starts, ds, hstarts, hlog, -⟩ |
    ⟨hr, starts, idx, model, ds, e, hstarts, hlog, he⟩
  · refine ⟨?_, fun hstuck => ?_⟩
    · have h := orderly_of_shape ds r.idx r.model hstarts (forall_mem_nil _) (Nat.zero_le 1)
      rwa [append_nil, ← hlog] at h
    · have hnone := stuck_iff.1 hstuck
      rw [hr] at hnone
      exact absurd hnone (cons_ne_nil _ _)
  · refine ⟨?_, fun _ => ?_⟩
    · rw [hlog]
      exact orderly_of_shape ds idx model hstarts (by simpa using he) (by simp)
    · rw [hlog, countP_append, countP_append, starts_countP hstarts, deltas_countP]
      simp [he]

/-! ## the answer in one piece -/

/-- where `executeWithFallback` ends: the models it called, and the one that answered -/
structure Executed (ρ : Type) where
  use : BreakerUse
  contacted : List String
  result : Except UpstreamFailure (String × ρ)

section
variable {ρ : Type} (w : Setting) (complete : ℕ → Except UpstreamFailure ρ)

/-- the loop over the candidates; `complete i` is what candidate `i` would answer -/
def tryCandidates : List String → ℕ → Tried → BreakerUse → List String → Executed ρ
  | [], _, t, use, contacted => ⟨use, contacted, .error (t.failure w.primaryModel)⟩
  | model :: rest, idx, t, use, contacted =>
    let answer := use.allowRequest w.outside model
    if answer.1 = false then
      tryCandidates rest (idx + 1) { t with anyCircuitOpen := true } answer.2 contacted
    else if (w.manager.registry.findByModel model).isNone then
      tryCandidates rest (idx + 1) t answer.2 contacted
    else
      match complete idx with
      | .ok resp =>
        ⟨answer.2.recordSuccess w.outside model, contacted ++ [model], .ok (model, resp)⟩
      | .error e =>
        tryCandidates rest (idx + 1) (t.record e) (answer.2.recordFailure w.outside model)
          (contacted ++ [model])

def executeWithFallback (b : CircuitBreaker) : Executed ρ :=
  tryCandidates w complete w.candidates 0 {} ⟨b, 0⟩ []

end

def Executed.served {ρ : Type} (x : Executed ρ) : Option String :=
  match x.result with
  | .ok (model, _) => some model
  | .error _ => none

def Event.contacts : Event → Option String
  | .started _ model => some model
  | _ => none

def Event.serves : Event → Option String
  | .done _ model _ => some model
  | _ => none

def Session.contacted (s : Session) : List String := s.log.filterMap contacts

def Session.served (s : Session) : Option String := s.log.findSome? serves

/-- a candidate answers both ways, or fails both ways and then before its first delta -/
def Consistent {ρ : Type} (w : Setting) (complete : ℕ → Except UpstreamFailure ρ) : Prop :=
  ∀ i, match complete i with
    | .ok _ => ∃ usage, (w.streamComplete i).2 = .ok usage
    | .error _ => (w.streamComplete i).1 = [] ∧ ∃ err, (w.streamComplete i).2 = .error err

section
variable {ρ : Type} {w : Setting} {complete : ℕ → Except UpstreamFailure ρ} (s : Session)
  (use : BreakerUse) (r : Running)

lemma contacted_begin : (s.begin use r).contacted = s.contacted ++ [r.model] := by
  simp [contacted, begin, contacts]

lemma served_begin : (s.begin use r).served = s.served := by
  simp [served, begin, serves]

lemma contacted_drained : (drained s r).contacted = s.contacted := by
  simp [contacted, drained, contacts]

lemma served_drained : (drained s r).served = s.served := by
  have hnone : (r.deltas.map (delta r.idx r.model)).findSome? serves = none := by
    rw [findSome?_eq_none_iff]
    intro e he
    obtain ⟨d, -, rfl⟩ := mem_map.1 he
    rfl
  simp [served, drained, hnone]

lemma atOnce_agrees (hsame : Consistent w complete) (rest : List String) :
    ∀ idx t (s : Session), s.chunksSent = false → s.served = none →
      let x := tryCandidates w complete rest idx t s.use s.contacted
      (atOnce w rest idx s).contacted = x.contacted ∧ (atOnce w rest idx s).served = x.served ∧
        (atOnce w rest idx s).use = x.use := by
  induction rest with
  | nil =>
    intro idx t s hsent hserved
    refine ⟨?_, ?_, rfl⟩
    · simp [atOnce, tryCandidates, contacted, contacts]
    · rw [served] at hserved
      simp [atOnce, tryCandidates, served, Executed.served, serves, hserved]
  | cons model rest ih =>
    intro idx t s hsent hserved
    rw [atOnce, tryCandidates]
    dsimp only
    split
    · exact ih _ _ _ hsent hserved
    split
    · exact ih _ _ _ hsent hserved
    -- the session once the connector has nothing more to pass on
    have hcontacted : (drained (s.begin (s.use.allowRequest w.outside model).2
        (w.connector idx model)) (w.connector idx model)).contacted = s.contacted ++ [model] := by
      rw [contacted_drained, contacted_begin]
      rfl
    have hserved' : (drained (s.begin (s.use.allowRequest w.outside model).2
        (w.connector idx model)) (w.connector idx model)).served = none := by
      rw [served_drained, served_begin, hserved]
    have hmodel := hsame idx
    cases hanswer : complete idx with
    | ok resp =>
      rw [hanswer] at hmodel
      obtain ⟨usage, hend⟩ := hmodel
      have hend : (w.connector idx model).ending = .ok usage := hend
      simp only [hend]
      refine ⟨?_, ?_, rfl⟩
      · rw [← hcontacted]
        simp [contacted, contacts]
      · rw [served] at hserved'
        simp [served, Executed.served, serves, hserved']
    | error e =>
      rw [hanswer] at hmodel
      obtain ⟨hds, err, hend⟩ := hmodel
      have hend : (w.connector idx model).ending = .error err := hend
      have hds : (w.connector idx model).deltas = [] := hds
      have hquiet : (drained (s.begin (s.use.allowRequest w.outside model).2 (w.connector idx model))
          (w.connector idx model)).chunksSent = false := by
        simp [drained, begin, hds, hsent]
      simp only [hend, hquiet, Bool.false_eq_true, if_false]
      rw [← hcontacted]
      exact ih (idx + 1) (t.record e) _ rfl hserved'

end

/-- both ways call the same models in the same order, are answered by the same one and leave the
same breaker -/
theorem fallback_paths_agree {ρ : Type} (w : Setting) (complete : ℕ → Except UpstreamFailure ρ)
    (b : CircuitBreaker) (hsame : Consistent w complete) : Ends (Turn w) (fun s =>
      s.contacted = (executeWithFallback w complete b).contacted ∧
        s.served = (executeWithFallback w complete b).served ∧
        s.use.breaker = (executeWithFallback w complete b).use.breaker) (streamWithFallback w b) := by
  refine (tryStreamModel_ends w _ 0 _ rfl rfl).mono fun s hs => ?_
  obtain ⟨hcontacted, hserved, huse⟩ := atOnce_agrees hsame w.candidates 0 {} { use := ⟨b, 0⟩ } rfl rfl
  rw [hs]
  exact ⟨hcontacted, hserved, congrArg BreakerUse.breaker huse⟩

/-- a fallback from `a` to `b`, of which only `b` answers -/
def secondAnswers : Setting where
  manager := ⟨⟨[⟨"up", fun _ => true⟩], .empty⟩, [("a", ["b"])]⟩
  primaryModel := "a"
  outside := ⟨fun _ => [], fun _ => 0, fun _ => 0⟩
  streamComplete i :=
    if i = 0 then ([], .error ⟨makeError .upstreamError, "timeout"⟩) else ([{ content := "hi" }], .ok {})

def secondCompletes (i : ℕ) : Except UpstreamFailure String :=
  if i = 0 then .error (.other "timeout") else .ok "hi"

lemma secondAnswers_consistent : Consistent secondAnswers secondCompletes := by
  intro i
  by_cases h : i = 0 <;> simp [secondAnswers, secondCompletes, h]

theorem second_serves_both_ways :
    (executeWithFallback secondAnswers secondCompletes (.create {} fun _ => 0)).contacted = ["a", "b"] ∧
      (executeWithFallback secondAnswers secondCompletes (.create {} fun _ => 0)).served = some "b" ∧
      Ends (Turn secondAnswers) (fun s =>
        s.contacted =
            (executeWithFallback secondAnswers secondCompletes (.create {} fun _ => 0)).contacted ∧
          s.served =
            (executeWithFallback secondAnswers secondCompletes (.create {} fun _ => 0)).served ∧
          s.use.breaker =
            (executeWithFallback secondAnswers secondCompletes (.create {} fun _ => 0)).use.breaker)
        (streamWithFallback secondAnswers (.create {} fun _ => 0)) :=
  ⟨by decide, by decide,
    fallback_paths_agree secondAnswers secondCompletes (.create {} fun _ => 0)
      secondAnswers_consistent⟩

end FallbackSession

end AegisGate
