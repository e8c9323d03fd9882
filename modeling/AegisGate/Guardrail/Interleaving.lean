import AegisGate.Guardrail.ChunkFilter
import AegisGate.Lib.Interleave

/-!
# Several streamed responses through one filter object

The stage objects of the outbound pipeline belong to the gateway, not to a response, and
`prev_tail_` is never reset.  A response is served as if it were alone exactly when `prev_tail_`
happens to be the tail of its own last chunk at each of its calls.
-/

namespace AegisGate

open ContentFilter Interleave

def outputsOf (stage : ChunkStage Bytes) : Bytes → Bytes → Bytes × Bytes :=
  fun prevTail chunk => ((stage prevTail chunk).1, (stage prevTail chunk).2.2)

/-- the chunk outputs of response `i` when the chunks of all responses pass through one stage -/
def sharedOutputs {ι : Type} [DecidableEq ι] (stage : ChunkStage Bytes) (i : ι)
    (chunks : List (ι × Bytes)) : List Bytes :=
  own i (shared (outputsOf stage) [] chunks)

/-- the chunk outputs of one response alone, from a fresh stage -/
def aloneOutputs (stage : ChunkStage Bytes) (chunks : List Bytes) : List Bytes :=
  Run.trace (outputsOf stage) [] chunks

/-- `prev_tail_` after these chunks, empty before the first -/
def prevTailAfter (chunks : List Bytes) : Bytes := lastMem chunkTail [] chunks

/-! ## a pattern that tells two tails apart -/

section
variable (tail s s' chunk : Bytes)

/-- the whole of one tail and chunk, replaced by a longer text -/
def probe (tail chunk : Bytes) : ContentPattern where
  name := "probe"
  regex := .exactly (tail ++ chunk)
  action := .replace
  replacement := 0 :: (tail ++ chunk)

def piiProbe (tail chunk : Bytes) : PIIPattern where
  name := "probe"
  regex := .exactly (tail ++ chunk)
  replacement := 0 :: (tail ++ chunk)

lemma cutOverlap_probe : (cutOverlap tail (0 :: (tail ++ chunk))).length = chunk.length + 1 := by
  unfold cutOverlap
  rw [if_pos (by simp; omega), List.length_drop, List.length_cons, List.length_append]
  omega

lemma probe_hit : (chunkOutput [probe tail chunk] tail chunk).length = chunk.length + 1 := by
  have h : chunkOutput [probe tail chunk] tail chunk
      = cutOverlap tail (0 :: (tail ++ chunk)) := by
    simp [chunkOutput, filter, applyPattern, act, probe, Regex.exactly]
  rw [h, cutOverlap_probe]

lemma probe_miss {tail tail' chunk : Bytes} (h : tail' ≠ tail) :
    chunkOutput [probe tail chunk] tail' chunk = chunk := by
  simp [chunkOutput, filter, applyPattern, probe, Regex.exactly, h]

lemma piiProbe_hit :
    (PIIFilter.chunkOutput [piiProbe tail chunk] tail chunk).length = chunk.length + 1 := by
  have h : PIIFilter.chunkOutput [piiProbe tail chunk] tail chunk
      = cutOverlap tail (0 :: (tail ++ chunk)) := by
    simp [PIIFilter.chunkOutput, PIIFilter.mask, piiProbe, Regex.exactly]
  rw [h, cutOverlap_probe]

lemma piiProbe_miss {tail tail' chunk : Bytes} (h : tail' ≠ tail) :
    PIIFilter.chunkOutput [piiProbe tail chunk] tail' chunk = chunk := by
  have hmask : PIIFilter.mask [piiProbe tail chunk] (tail' ++ chunk) = tail' ++ chunk := by
    simp [PIIFilter.mask, piiProbe, Regex.exactly, h]
  unfold PIIFilter.chunkOutput
  rw [hmask, cutOverlap_append]

/-- the outputs of a filter on one chunk, over all pattern lists, determine `prev_tail_` -/
lemma content_separates (h : ∀ patterns, chunkOutput patterns s chunk
      = chunkOutput patterns s' chunk) : s = s' := by
  by_contra hne
  have hlen := congrArg List.length (h [probe s chunk])
  rw [probe_hit, probe_miss (Ne.symm hne)] at hlen
  omega

lemma pii_separates (h : ∀ patterns, PIIFilter.chunkOutput patterns s chunk
      = PIIFilter.chunkOutput patterns s' chunk) : s = s' := by
  by_contra hne
  have hlen := congrArg List.length (h [piiProbe s chunk])
  rw [piiProbe_hit, piiProbe_miss (Ne.symm hne)] at hlen
  omega

end

/-! ## interleavings -/

section
variable {ι : Type} [DecidableEq ι]

/-- an interleaving leaves response `i` alone, for all content and PII patterns, exactly when
`prev_tail_` before each chunk of `i` is the tail of the last chunk of `i` itself -/
theorem stream_noninterference_iff (i : ι) (chunks : List (ι × Bytes)) :
    ((∀ patterns, sharedOutputs (processChunk patterns) i chunks
          = aloneOutputs (processChunk patterns) (own i chunks))
      ∧ ∀ patterns, sharedOutputs (PIIFilter.processChunk patterns) i chunks
          = aloneOutputs (PIIFilter.processChunk patterns) (own i chunks))
      ↔ ∀ before chunk, before ++ [(i, chunk)] <+: chunks →
          prevTailAfter (before.map Prod.snd) = prevTailAfter (own i before) := by
  have hc := forall_own_shared_eq_iff chunkTail ([] : Bytes) chunkOutput
    content_separates i chunks
  have hp := forall_own_shared_eq_iff chunkTail ([] : Bytes) PIIFilter.chunkOutput
    pii_separates i chunks
  constructor
  · intro h
    exact hc.1 h.1
  · intro h
    exact ⟨hc.2 h, hp.2 h⟩

end

def keyPattern : ContentPattern where
  name := "key"
  regex := .ofMatcher (Rewrite.literal (bytes "sk="))
  action := .replace
  replacement := bytes "[FILTERED]"

/-- the replacement in the other response's tail shifts the cut into that tail -/
theorem tail_of_other_response_leaks :
    sharedOutputs (processChunk [keyPattern]) 1
        [(0, bytes "sk=hunter2"), (1, bytes "ok")] = [bytes "hunter2ok"]
      ∧ aloneOutputs (processChunk [keyPattern])
        (own 1 [(0, bytes "sk=hunter2"), (1, bytes "ok")]) = [bytes "ok"]
      ∧ bytes "hunter2ok" ≠ bytes "ok" := by
  decide

end AegisGate
