/-!
# Pipelines over the chunks of a streamed response

`src/core/pipeline.cpp`, `Pipeline::executeChunk`, and the `onDelta` lambda of
`GatewayRuntime::processStreamingRequest` that forwards its result.  A stage keeps a memory in
`σ` between calls; its third component is what it left in `ctx.chunk_output`, empty if it did not
write there.
-/

namespace AegisGate

abbrev Bytes := List UInt8

def bytes (s : String) : Bytes := s.toUTF8.data.toList

inductive StageResult where
  | continue
  | shortCircuit
  | reject
  | error
  deriving DecidableEq, Repr

inductive PipelineResult where
  | success
  | shortCircuited
  | rejected
  | error
  deriving DecidableEq, Repr

abbrev ChunkStage (σ : Type) := σ → Bytes → σ × StageResult × Bytes

namespace Pipeline

variable {σ : Type}

/-- the stages in order with their memories; an empty `chunk_output` keeps the current text -/
def executeChunk : List (ChunkStage σ × σ) → Bytes →
    List (ChunkStage σ × σ) × PipelineResult × Bytes
  | [], current => ([], .success, current)
  | (stage, s) :: rest, current =>
    match stage s current with
    | (s', .continue, out) =>
      let (rest', result, final) := executeChunk rest (if out = [] then current else out)
      ((stage, s') :: rest', result, final)
    | (s', .reject, _) => ((stage, s') :: rest, .rejected, [])
    | (s', .shortCircuit, _) => ((stage, s') :: rest, .shortCircuited, current)
    | (s', .error, _) => ((stage, s') :: rest, .error, [])

/-- the state of one streamed response: the outbound stages and `stream_rejected` -/
structure StreamState (σ : Type) where
  stages : List (ChunkStage σ × σ)
  streamRejected : Bool := false

/-- one upstream delta: the next state and the content passed on to the client, if any -/
def onDelta (st : StreamState σ) (delta : Bytes) : StreamState σ × Option Bytes :=
  if st.streamRejected then (st, none)
  else if delta = [] then (st, some delta)
  else
    match executeChunk st.stages delta with
    | (stages, .rejected, _) => ({ stages, streamRejected := true }, none)
    | (stages, _, filtered) =>
      ({ st with stages }, some (if filtered = [] then delta else filtered))

end Pipeline

end AegisGate
