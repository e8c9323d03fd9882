import AegisGate.Server.Completion

/-!
# A failing outbound stage

What the client and the semantic cache get when an outbound stage returns `Reject` or `Error`, for a
whole response or for a chunk of a stream.

* `visits`  the chunks of a stream, each with the state in which it finds the stages;
* `Clean`  what is sent for a chunk is what came out of all its stages;
* `Contained`  text that a stage has stopped is neither returned nor cached.

Only `Rejected` is handled after the pipelines, so `Contained` comes down to `Untroubled`.  The text
of a response is its content.
-/

namespace AegisGate

open List

/-- what a stage that returns this makes of the pipeline -/
def StageResult.ending : StageResult → PipelineResult
  | .continue => .success
  | .shortCircuit => .shortCircuited
  | .reject => .rejected
  | .error => .error

lemma StageResult.ending_injective {v w : StageResult} (h : v.ending = w.ending) : v = w := by
  cases v <;> cases w <;> first | rfl | cases h

/-! ## stages in a row -/

section
variable {α : Type}

/-- the stages in order, up to the first that does not go on -/
def through : List (α → α × StageResult) → α → α × StageResult
  | [], a => (a, .continue)
  | f :: fs, a => if (f a).2 = .continue then through fs (f a).1 else f a

def Reached (fs : List (α → α × StageResult)) (a : α) (v : StageResult) : Prop :=
  ∃ front f back, fs = front ++ f :: back ∧ (through front a).2 = .continue
    ∧ (f (through front a).1).2 = v

lemma reached_cons (f : α → α × StageResult) (fs : List (α → α × StageResult)) (a : α)
    (v : StageResult) :
    Reached (f :: fs) a v ↔ (f a).2 = v ∨ (f a).2 = .continue ∧ Reached fs (f a).1 v := by
  constructor
  · intro h
    obtain ⟨front, f', back, hlist, hfront, hv⟩ := h
    cases front with
    | nil =>
      cases hlist
      exact .inl hv
    | cons x front =>
      cases hlist
      rw [through] at hfront hv
      by_cases hf : (f a).2 = .continue
      · rw [if_pos hf] at hfront hv
        exact .inr ⟨hf, front, f', back, rfl, hfront, hv⟩
      · rw [if_neg hf] at hfront
        exact absurd hfront hf
  · intro h
    rcases h with hv | ⟨hf, front, f', back, rfl, hfront, hv⟩
    · exact ⟨[], f, fs, rfl, rfl, hv⟩
    · refine ⟨f :: front, f', back, rfl, ?_⟩
      rw [through, if_pos hf]
      exact ⟨hfront, hv⟩

lemma through_eq_iff {v : StageResult} (hv : v ≠ .continue) (fs : List (α → α × StageResult)) :
    ∀ a, ((through fs a).2 = v ↔ Reached fs a v) := by
  induction fs with
  | nil =>
    intro a
    refine ⟨fun h => absurd h.symm hv, fun h => ?_⟩
    obtain ⟨front, f, back, hlist, _⟩ := h
    exact absurd hlist.symm (append_ne_nil_of_right_ne_nil front (cons_ne_nil f back))
  | cons f fs ih =>
    intro a
    rw [reached_cons, through]
    by_cases hf : (f a).2 = .continue
    · rw [if_pos hf, ih]
      refine ⟨fun h => .inr ⟨hf, h⟩, fun h => ?_⟩
      rcases h with h | h
      · exact absurd (h.symm.trans hf) hv
      · exact h.2
    · rw [if_neg hf]
      exact ⟨.inl, fun h => h.resolve_right fun h' => hf h'.1⟩

end

namespace Pipeline

/-! ## chunks -/

section
variable {σ : Type} {x : StreamState σ × Bytes} {v : StageResult} (deltas : List Bytes)
  (stages : List (ChunkStage σ × σ))

/-- a chunk stage as it hands the text on; what it leaves empty stays as it was -/
def chunkStep (x : ChunkStage σ × σ) (chunk : Bytes) : Bytes × StageResult :=
  (if (x.1 x.2 chunk).2.2 = [] then chunk else (x.1 x.2 chunk).2.2, (x.1 x.2 chunk).2.1)

lemma executeChunk_result : ∀ chunk,
    (executeChunk stages chunk).2.1 = (through (stages.map chunkStep) chunk).2.ending := by
  induction stages with
  | nil => intro chunk; rfl
  | cons x rest ih =>
    intro chunk
    obtain ⟨stage, s⟩ := x
    rcases hr : stage s chunk with ⟨s', v, out⟩
    have hstep : chunkStep (stage, s) chunk = (if out = [] then chunk else out, v) := by
      show (if (stage s chunk).2.2 = [] then chunk else (stage s chunk).2.2,
        (stage s chunk).2.1) = _
      rw [hr]
    rw [executeChunk, hr, map_cons, through, hstep]
    cases v with
    | «continue» => exact ih _
    | shortCircuit | reject | error => rfl

lemma executeChunk_text : ∀ chunk, chunk ≠ [] →
    ((executeChunk stages chunk).2.2 = [] ↔
      (executeChunk stages chunk).2.1 = .rejected ∨ (executeChunk stages chunk).2.1 = .error) := by
  induction stages with
  | nil =>
    intro chunk hchunk
    refine ⟨fun h => absurd h hchunk, fun h => ?_⟩
    rcases h with h | h <;> cases h
  | cons x rest ih =>
    intro chunk hchunk
    obtain ⟨stage, s⟩ := x
    rw [executeChunk]
    generalize stage s chunk = r
    obtain ⟨s', v, out⟩ := r
    cases v with
    | «continue» =>
      refine ih _ ?_
      split
      · exact hchunk
      · next hout => exact hout
    | shortCircuit =>
      refine ⟨fun h => absurd h hchunk, fun h => ?_⟩
      rcases h with h | h <;> cases h
    | reject => exact ⟨fun _ => .inl rfl, fun _ => rfl⟩
    | error => exact ⟨fun _ => .inr rfl, fun _ => rfl⟩

def visits : StreamState σ → List Bytes → List (StreamState σ × Bytes)
  | _, [] => []
  | st, delta :: deltas => (st, delta) :: visits (onDelta st delta).1 deltas

/-- the chunk goes through the stages and one of them returns `v` -/
def ChunkReturns (x : StreamState σ × Bytes) (v : StageResult) : Prop :=
  x.1.streamRejected = false ∧ x.2 ≠ [] ∧ Reached (x.1.stages.map chunkStep) x.2 v

def Clean (x : StreamState σ × Bytes) : Prop :=
  ∀ text, (onDelta x.1 x.2).2 = some text → text ≠ [] →
    (executeChunk x.1.stages x.2).2 = (.success, text)

lemma chunkReturns_iff (hopen : x.1.streamRejected = false) (hchunk : x.2 ≠ [])
    (hv : v ≠ .continue) : ChunkReturns x v ↔ (executeChunk x.1.stages x.2).2.1 = v.ending := by
  unfold ChunkReturns
  rw [executeChunk_result, ← through_eq_iff hv]
  exact ⟨fun h => by rw [h.2.2], fun h => ⟨hopen, hchunk, StageResult.ending_injective h⟩⟩

lemma ChunkReturns.result (h : ChunkReturns x v) (hv : v ≠ .continue) :
    (executeChunk x.1.stages x.2).2.1 = v.ending :=
  (chunkReturns_iff h.1 h.2.1 hv).1 h

lemma onDelta_eq (hopen : x.1.streamRejected = false) (hchunk : x.2 ≠ []) :
    ((executeChunk x.1.stages x.2).2.1 = .rejected ∧ (onDelta x.1 x.2).2 = none
        ∧ (onDelta x.1 x.2).1.streamRejected) ∨ (executeChunk x.1.stages x.2).2.1 ≠ .rejected
        ∧ (onDelta x.1 x.2).2 = some (if (executeChunk x.1.stages x.2).2.2 = [] then x.2
          else (executeChunk x.1.stages x.2).2.2) ∧ (onDelta x.1 x.2).1.streamRejected = false := by
  unfold onDelta
  rw [if_neg (by rw [hopen]; decide), if_neg hchunk]
  generalize executeChunk x.1.stages x.2 = r
  obtain ⟨stages, result, filtered⟩ := r
  cases result with
  | rejected => exact .inl ⟨rfl, rfl, rfl⟩
  | success | shortCircuited | error => exact .inr ⟨nofun, rfl, hopen⟩

lemma clean_open_iff (hopen : x.1.streamRejected = false) (hchunk : x.2 ≠ []) :
    Clean x ↔ ¬ ChunkReturns x .error ∧ ¬ ChunkReturns x .shortCircuit := by
  rw [chunkReturns_iff (v := .error) hopen hchunk nofun,
    chunkReturns_iff (v := .shortCircuit) hopen hchunk nofun]
  unfold Clean
  rcases onDelta_eq hopen hchunk with ⟨hrej, hsent, _⟩ | ⟨hne, hsent, _⟩
  · rw [hsent, hrej]
    exact ⟨fun _ => ⟨nofun, nofun⟩, fun _ => nofun⟩
  · have hfull : (executeChunk x.1.stages x.2).2.1 ≠ .error → (executeChunk x.1.stages x.2).2.2 ≠ [] :=
      fun herror hnil => ((executeChunk_text x.1.stages x.2 hchunk).1 hnil).elim hne herror
    rw [hsent]
    cases hresult : (executeChunk x.1.stages x.2).2.1 with
    | rejected => exact absurd hresult hne
    | success =>
      rw [if_neg (hfull (by rw [hresult]; exact nofun))]
      refine ⟨fun _ => ⟨nofun, nofun⟩, fun _ text h _ => ?_⟩
      cases h
      exact Prod.ext hresult rfl
    | shortCircuited =>
      have hfull := hfull (by rw [hresult]; exact nofun)
      rw [if_neg hfull]
      refine ⟨fun h => ?_, fun h => absurd rfl h.2⟩
      have hpair := h _ rfl hfull
      rw [hpair] at hresult
      cases hresult
    | error =>
      rw [if_pos ((executeChunk_text x.1.stages x.2 hchunk).2 (.inr hresult))]
      refine ⟨fun h => ?_, fun h => absurd rfl h.1⟩
      have hpair := h _ rfl hchunk
      rw [hpair] at hresult
      cases hresult

lemma clean_iff (x : StreamState σ × Bytes) :
    Clean x ↔ ¬ ChunkReturns x .error ∧ ¬ ChunkReturns x .shortCircuit := by
  by_cases hopen : x.1.streamRejected = false
  · by_cases hchunk : x.2 = []
    · refine ⟨fun _ => ⟨fun h => h.2.1 hchunk, fun h => h.2.1 hchunk⟩, fun _ text hsent hne => ?_⟩
      unfold onDelta at hsent
      rw [if_neg (by rw [hopen]; decide), if_pos hchunk, hchunk] at hsent
      cases hsent
      exact absurd rfl hne
    · exact clean_open_iff hopen hchunk
  · have hclosed : x.1.streamRejected := by
      rw [← Bool.not_eq_false]
      exact hopen
    refine ⟨fun _ => ⟨fun h => hopen h.1, fun h => hopen h.1⟩, fun _ text hsent => ?_⟩
    unfold onDelta at hsent
    rw [if_pos hclosed] at hsent
    cases hsent

lemma onDelta_streamRejected (x : StreamState σ × Bytes) :
    (onDelta x.1 x.2).1.streamRejected ↔ x.1.streamRejected ∨ ChunkReturns x .reject := by
  by_cases hopen : x.1.streamRejected = false
  · by_cases hchunk : x.2 = []
    · unfold onDelta
      rw [if_neg (by rw [hopen]; decide), if_pos hchunk]
      exact ⟨.inl, fun h => h.resolve_right fun h' => h'.2.1 hchunk⟩
    · rw [chunkReturns_iff hopen hchunk (fun h => by cases h), hopen]
      rcases onDelta_eq hopen hchunk with ⟨hrej, _, hclosed⟩ | ⟨hne, _, hstill⟩
      · exact ⟨fun _ => .inr hrej, fun _ => hclosed⟩
      · rw [hstill]
        exact ⟨nofun, fun h => absurd (h.resolve_left nofun) hne⟩
  · have hclosed : x.1.streamRejected := by
      rw [← Bool.not_eq_false]
      exact hopen
    unfold onDelta
    rw [if_pos hclosed]
    exact ⟨.inl, fun _ => hclosed⟩

lemma visits_closed : ∀ st : StreamState σ, st.streamRejected →
    ∀ x ∈ visits st deltas, x.1.streamRejected := by
  induction deltas with
  | nil => intro st _ x hx; cases hx
  | cons delta deltas ih =>
    intro st hst x hx
    rcases mem_cons.1 hx with rfl | hx
    · exact hst
    · exact ih _ ((onDelta_streamRejected (st, delta)).2 (.inl hst)) x hx

lemma streamRejected_iff : ∀ st : StreamState σ,
    ((deltas.foldl (fun st delta => (onDelta st delta).1) st).streamRejected ↔
      st.streamRejected ∨ ∃ x ∈ visits st deltas, ChunkReturns x .reject) := by
  induction deltas with
  | nil =>
    intro st
    exact ⟨.inl, fun h => h.resolve_right nofun⟩
  | cons delta deltas ih =>
    intro st
    rw [foldl_cons, ih, onDelta_streamRejected (st, delta), visits, or_assoc]
    simp only [mem_cons, exists_eq_or_imp]

lemma clean_after_failure_iff : ∀ st : StreamState σ,
    ((∀ front x back, visits st deltas = front ++ x :: back →
        ChunkReturns x .reject ∨ ChunkReturns x .error → ∀ y ∈ x :: back, Clean y) ↔
      ∀ x ∈ visits st deltas, ¬ ChunkReturns x .error) := by
  induction deltas with
  | nil =>
    intro st
    refine ⟨fun _ => forall_mem_nil _, fun _ front x back hlist => ?_⟩
    exact absurd hlist.symm (append_ne_nil_of_right_ne_nil front (cons_ne_nil x back))
  | cons delta deltas ih =>
    intro st
    rw [visits, forall_mem_cons, ← ih]
    constructor
    · intro h
      refine ⟨fun herr => ?_, fun front x back hlist =>
        h ((st, delta) :: front) x back (by rw [hlist]; rfl)⟩
      exact ((clean_iff _).1 (h [] _ _ rfl (.inr herr) _ mem_cons_self)).1 herr
    · intro h front x back hlist hfail
      obtain ⟨hhead, htail⟩ := h
      cases front with
      | nil =>
        cases hlist
        have hrej := hfail.resolve_right hhead
        have hclosed : (onDelta st delta).1.streamRejected :=
          (onDelta_streamRejected (st, delta)).2 (.inr hrej)
        intro y hy
        rcases mem_cons.1 hy with rfl | hy
        · refine (clean_iff _).2 ⟨hhead, fun hshort => ?_⟩
          have := (hrej.result nofun).symm.trans
            (hshort.result nofun)
          cases this
        · have hy' := visits_closed deltas _ hclosed y hy
          have hnot : ∀ v, ¬ ChunkReturns y v := by
            intro v h
            rw [ChunkReturns, hy'] at h
            cases h.1
          exact (clean_iff _).2 ⟨hnot _, hnot _⟩
      | cons z front =>
        exact htail front x back (List.cons.inj hlist).2 hfail

end

end Pipeline

namespace Server
open Pipeline

/-! ## whole responses -/

def stageStep (stage : OutboundStage) (ctx : RequestContext) : RequestContext × StageResult :=
  ({ ctx with accumulatedResponse := (stage ctx).1 }, (stage ctx).2)

lemma executeStages_eq (stages : List OutboundStage) : ∀ ctx,
    executeStages stages ctx =
      ((through (stages.map stageStep) ctx).1, (through (stages.map stageStep) ctx).2.ending) := by
  induction stages with
  | nil => intro ctx; rfl
  | cons stage rest ih =>
    intro ctx
    rcases hr : stage ctx with ⟨response, v⟩
    have hstep : stageStep stage ctx = ({ ctx with accumulatedResponse := response }, v) := by
      unfold stageStep
      rw [hr]
    rw [executeStages, hr, map_cons, through, hstep]
    cases v with
    | «continue» => exact ih _
    | shortCircuit | reject | error => rfl

/-- the stages of the outbound pipeline that decide; the cost tracker always goes on -/
def Outbound.stages (o : Outbound) : List (RequestContext → RequestContext × StageResult) :=
  (o.beforeCost ++ o.afterCost).map stageStep

lemma through_append {α : Type} (fs fs' : List (α → α × StageResult)) : ∀ a,
    through (fs ++ fs') a =
      if (through fs a).2 = .continue then through fs' (through fs a).1 else through fs a := by
  induction fs with
  | nil => intro a; rfl
  | cons f fs ih =>
    intro a
    rw [cons_append, through, through]
    split
    · exact ih _
    · rfl

lemma execute_eq (o : Outbound) (ctx : RequestContext) :
    (o.execute ctx).1 = (through o.stages ctx).1
      ∧ (o.execute ctx).2.1 = (through o.stages ctx).2.ending := by
  unfold Outbound.execute Outbound.stages
  rw [map_append, through_append, executeStages_eq o.beforeCost]
  cases hv : (through (o.beforeCost.map stageStep) ctx).2 with
  | «continue» =>
    show (executeStages o.afterCost _).1 = _ ∧ (executeStages o.afterCost _).2 = _
    rw [executeStages_eq o.afterCost]
    exact ⟨rfl, rfl⟩
  | shortCircuit | reject | error => exact ⟨rfl, by rw [if_neg nofun, hv]; rfl⟩

/-- a stage that is reached by the response of the context returns `v` -/
def StageReturns (o : Outbound) (ctx : RequestContext) (v : StageResult) : Prop :=
  Reached o.stages ctx v

lemma stageReturns_iff (o : Outbound) (ctx : RequestContext) {v : StageResult}
    (hv : v ≠ .continue) : StageReturns o ctx v ↔ (o.execute ctx).2.1 = v.ending := by
  rw [(execute_eq o ctx).2, StageReturns, ← through_eq_iff hv]
  exact ⟨fun h => by rw [h], StageResult.ending_injective⟩

lemma through_streamRejected (stages : List OutboundStage) : ∀ ctx,
    (through (stages.map stageStep) ctx).1.streamRejected = ctx.streamRejected := by
  induction stages with
  | nil => intro ctx; rfl
  | cons stage rest ih =>
    intro ctx
    rw [map_cons, through]
    split
    · exact ih _
    · rfl

/-! ## what is returned and cached -/

section
variable {σ : Type} (g : Gateway σ) (u : Upstream) (ctx : RequestContext) (h : List Invocation)

def upstreamAnswer : Except UpstreamFailure String :=
  (g.fallback.executeWithFallback u ctx.chatRequest.messages ctx.targetModel h).2

/-- the context that the outbound pipeline gets with an answer -/
def answerContext (content : String) : RequestContext :=
  { ctx with
    tokenUsage := servedUsage u ctx.chatRequest.messages
      (g.fallback.executeWithFallback u ctx.chatRequest.messages ctx.targetModel h).1
    accumulatedResponse := content }

def upstreamStream : FallbackManager.StreamRun :=
  g.fallback.streamWithFallback u ctx.chatRequest.messages ctx.targetModel h

/-- … and at the end of a stream -/
def streamContext (usage : TokenUsage) : RequestContext :=
  { ctx with
    tokenUsage := usage
    accumulatedResponse := String.join ((upstreamStream g u ctx h).deltas.map (·.content))
    streamRejected := rejectsChunk g (upstreamStream g u ctx h).deltas }

def streamVisits : List (StreamState σ × Bytes) :=
  visits { stages := g.chunkStages } ((upstreamStream g u ctx h).deltas.map (bytes ·.content))

def Stopped (o : Outbound) (ctx : RequestContext) : Prop :=
  StageReturns o ctx .reject ∨ StageReturns o ctx .error

structure Contained : Prop where
  /-- an answer that is stopped: no text is returned, none is cached -/
  answer : ∀ content, upstreamAnswer g u ctx h = .ok content →
    Stopped g.outbound (answerContext g u ctx h content) →
      (∀ response, (completeTarget g u ctx h).answer = .ok response → response.content = "")
        ∧ ∀ entry ∈ (completeTarget g u ctx h).cached, entry.response = ""
  /-- a chunk that is stopped: of it and the later ones only clean text is sent -/
  chunks : ∀ front x back, streamVisits g u ctx h = front ++ x :: back →
    ChunkReturns x .reject ∨ ChunkReturns x .error → ∀ y ∈ x :: back, Pipeline.Clean y
  /-- … and what is cached has passed all stages -/
  cached : ∀ usage, (upstreamStream g u ctx h).ending = .ok usage →
    (∃ x ∈ streamVisits g u ctx h, ChunkReturns x .reject ∨ ChunkReturns x .error) →
      ∀ entry ∈ (streamTarget g u ctx h).cached, entry.response ≠ "" →
        (g.outbound.execute (streamContext g u ctx h usage)).2.1 = .success
  /-- a streamed response that is stopped: only clean text was sent, and none is cached -/
  stream : ∀ usage, (upstreamStream g u ctx h).ending = .ok usage →
    Stopped g.outbound (streamContext g u ctx h usage) →
      (∀ x ∈ streamVisits g u ctx h, Pipeline.Clean x)
        ∧ ∀ entry ∈ (streamTarget g u ctx h).cached, entry.response = ""

/-- no stage returns `Error`, unless no text is left, and a stopped response had no chunk
short-circuited -/
structure Untroubled : Prop where
  answer : ∀ content, upstreamAnswer g u ctx h = .ok content →
    StageReturns g.outbound (answerContext g u ctx h content) .error →
      (g.outbound.execute (answerContext g u ctx h content)).1.accumulatedResponse = ""
  chunks : ∀ x ∈ streamVisits g u ctx h, ¬ ChunkReturns x .error
  stream : ∀ usage, (upstreamStream g u ctx h).ending = .ok usage →
    Stopped g.outbound (streamContext g u ctx h usage) →
      ∀ x ∈ streamVisits g u ctx h, ¬ ChunkReturns x .shortCircuit
  cached : ∀ usage, (upstreamStream g u ctx h).ending = .ok usage →
    StageReturns g.outbound (streamContext g u ctx h usage) .error →
      (∃ x ∈ streamVisits g u ctx h, ChunkReturns x .reject)
        ∨ ∀ entry ∈ cacheResponse g.semanticCache
            (g.outbound.execute (streamContext g u ctx h usage)).1, entry.response = ""

variable {g u ctx h}

lemma completeTarget_ok {content : String} (hok : upstreamAnswer g u ctx h = .ok content) :
    ((g.outbound.execute (answerContext g u ctx h content)).2.1 = .rejected →
        (∀ response, (completeTarget g u ctx h).answer ≠ .ok response)
          ∧ (completeTarget g u ctx h).cached = [])
      ∧ ((g.outbound.execute (answerContext g u ctx h content)).2.1 ≠ .rejected →
        (∃ response, (completeTarget g u ctx h).answer = .ok response ∧ response.content =
            (g.outbound.execute (answerContext g u ctx h content)).1.accumulatedResponse)
          ∧ (completeTarget g u ctx h).cached = cacheResponse g.semanticCache
            (g.outbound.execute (answerContext g u ctx h content)).1) := by
  unfold upstreamAnswer at hok
  unfold completeTarget answerContext
  dsimp only
  rw [hok]
  dsimp only
  constructor
  · intro hrej
    rw [if_pos hrej]
    exact ⟨nofun, rfl⟩
  · intro hne
    rw [if_neg hne]
    exact ⟨⟨_, rfl, rfl⟩, rfl⟩

lemma streamTarget_ok {usage : TokenUsage} (hok : (upstreamStream g u ctx h).ending = .ok usage) :
    (streamTarget g u ctx h).cached = if rejectsChunk g (upstreamStream g u ctx h).deltas
          ∨ (g.outbound.execute (streamContext g u ctx h usage)).2.1 = .rejected then []
      else cacheResponse g.semanticCache (g.outbound.execute (streamContext g u ctx h usage)).1 := by
  have hclosed : (g.outbound.execute (streamContext g u ctx h usage)).1.streamRejected =
      rejectsChunk g (upstreamStream g u ctx h).deltas := by
    rw [(execute_eq _ _).1]
    exact through_streamRejected _ _
  unfold upstreamStream at hok
  unfold streamTarget
  dsimp only
  rw [hok]
  change Handled.cached (if ((g.outbound.execute (streamContext g u ctx h usage)).1.streamRejected
    || decide ((g.outbound.execute (streamContext g u ctx h usage)).2.1 = .rejected))
      then _ else _) = _
  rw [hclosed]
  simp only [Bool.or_eq_true, decide_eq_true_eq]
  split <;> rfl

lemma rejectsChunk_iff : rejectsChunk g (upstreamStream g u ctx h).deltas ↔
    ∃ x ∈ streamVisits g u ctx h, ChunkReturns x .reject := by
  have hiff := streamRejected_iff
    ((upstreamStream g u ctx h).deltas.map (bytes ·.content))
    ({ stages := g.chunkStages } : StreamState σ)
  rw [foldl_map] at hiff
  unfold rejectsChunk streamVisits
  rw [hiff]
  exact ⟨fun hr => hr.resolve_left nofun, .inr⟩

variable (g u ctx h)

/-- A stage that fails or rejects keeps its text from the client and the cache exactly when no `Error`
lets text through and no chunk was short-circuited. -/
theorem outbound_failure_contained_iff : Contained g u ctx h ↔ Untroubled g u ctx h := by
  have hrejected : ∀ o ctx, StageReturns o ctx .reject ↔ (o.execute ctx).2.1 = .rejected :=
    fun o ctx => stageReturns_iff o ctx nofun
  have herror : ∀ o ctx, StageReturns o ctx .error ↔ (o.execute ctx).2.1 = .error :=
    fun o ctx => stageReturns_iff o ctx nofun
  constructor
  · intro hc
    have hchunks := (clean_after_failure_iff _ _).1 hc.chunks
    refine ⟨?_, hchunks, ?_, ?_⟩
    · intro content hok herr
      have hne : (g.outbound.execute (answerContext g u ctx h content)).2.1 ≠ .rejected := by
        rw [(herror _ _).1 herr]
        exact nofun
      obtain ⟨⟨response, hanswer, htext⟩, _⟩ := (completeTarget_ok hok).2 hne
      rw [← htext]
      exact (hc.answer content hok (.inr herr)).1 response hanswer
    · intro usage hok hstop x hx
      exact ((clean_iff x).1 ((hc.stream usage hok hstop).1 x hx)).2
    · intro usage hok herr
      by_cases hclosed : rejectsChunk g (upstreamStream g u ctx h).deltas
      · exact .inl (rejectsChunk_iff.1 hclosed)
      · right
        have hnone := (hc.stream usage hok (.inr herr)).2
        rw [streamTarget_ok hok, if_neg] at hnone
        · exact hnone
        · intro hor
          rcases hor with hor | hor
          · exact hclosed hor
          · rw [(herror _ _).1 herr] at hor
            cases hor
  · intro hu
    have hchunks := (clean_after_failure_iff _ _).2 hu.chunks
    refine ⟨?_, hchunks, ?_, ?_⟩
    · intro content hok hstop
      rcases hstop with hrej | herr
      · obtain ⟨hanswer, hcached⟩ := (completeTarget_ok hok).1 ((hrejected _ _).1 hrej)
        rw [hcached]
        exact ⟨fun response he => absurd he (hanswer response), forall_mem_nil _⟩
      · have hne : (g.outbound.execute (answerContext g u ctx h content)).2.1 ≠ .rejected := by
          rw [(herror _ _).1 herr]
          exact nofun
        have hempty := hu.answer content hok herr
        obtain ⟨⟨response, hanswer, htext⟩, hcached⟩ := (completeTarget_ok hok).2 hne
        rw [hanswer, hcached]
        refine ⟨fun response' he => ?_, fun entry he => (cacheResponse_entry he).2.trans hempty⟩
        cases he
        exact htext.trans hempty
    · intro usage hok hfail entry hentry
      obtain ⟨x, hx, hfail⟩ := hfail
      have hrej := hfail.resolve_right (hu.chunks x hx)
      rw [streamTarget_ok hok, if_pos (.inl (rejectsChunk_iff.2 ⟨x, hx, hrej⟩))] at hentry
      cases hentry
    · intro usage hok hstop
      refine ⟨fun x hx => (clean_iff x).2 ⟨hu.chunks x hx, hu.stream usage hok hstop x hx⟩, ?_⟩
      rw [streamTarget_ok hok]
      split
      · exact forall_mem_nil _
      · next hnot =>
        push Not at hnot
        have herr := hstop.resolve_left fun hr => hnot.2 ((hrejected _ _).1 hr)
        exact (hu.cached usage hok herr).resolve_left
          (fun hr => hnot.1 (rejectsChunk_iff.2 hr))

end

/-! ## a stage that fails -/

def answering (text : String) : Upstream where
  allowRequest := fun _ _ => true
  complete := fun _ _ _ => .ok text
  usage := fun _ _ _ => {}
  streamComplete := fun _ _ _ => ([{ content := text }], .ok {})

def failingGateway : Gateway Unit where
  router := fun _ ctx => .ok ("m", ctx)
  fallback := { registry := { connectors := [⟨"p", fun _ => true⟩] } }
  outbound := { beforeCost := [fun ctx => (ctx.accumulatedResponse, .error)] }
  chunkStages := [(fun _ _ => ((), .error, []), ())]
  semanticCache := some { keyInfo := fun _ _ _ => ("q", "") }

def askingContext : RequestContext where
  targetModel := "m"
  chatRequest := { messages := [{}] }

/-- the answer is returned and cached, and the chunk is sent -/
theorem failing_stage_delivers :
    (∃ response, (completeTarget failingGateway (answering "s") askingContext []).answer = .ok response
        ∧ response.content = "s")
      ∧ ((completeTarget failingGateway (answering "s") askingContext []).cached.map (·.response)) = ["s"]
      ∧ ((streamVisits failingGateway (answering "s") askingContext []).map
          (fun x => (onDelta x.1 x.2).2)) = [some (bytes "s")]
      ∧ ¬ Contained failingGateway (answering "s") askingContext [] := by
  refine ⟨⟨_, rfl, rfl⟩, rfl, rfl, fun hc => ?_⟩
  have hempty := (hc.answer "s" rfl (.inr ⟨[], _, [], rfl, rfl, rfl⟩)).1 _ rfl
  exact absurd hempty (by decide)


end Server
end AegisGate
