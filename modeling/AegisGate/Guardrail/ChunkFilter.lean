import AegisGate.Core.Pipeline
import AegisGate.Lib.Rewrite

/-!
# The two filters of streamed text

`src/guardrail/outbound/content_filter.cpp` and the outbound half of
`src/guardrail/inbound/pii_filter.cpp`.  Both prepend the tail of the last chunk they saw, rewrite,
and cut the tail off again.

* `Regex`  the three RE2 calls the filters make;
* `ContentFilter.filter`  the pattern loop;
* `ContentFilter.processChunk`,
  `PIIFilter.processChunk`  one chunk, with `prev_tail_` as the stage's memory.
-/

namespace AegisGate

/-- a compiled pattern: `PartialMatch`, the start of the first `UNANCHORED` match, and
`GlobalReplace` with an escaped, hence literal, replacement -/
structure Regex where
  partialMatch : Bytes → Bool
  firstMatch : Bytes → Option Nat
  globalReplace : Bytes → Bytes → Bytes

/-- `\\A…\\z` around a quoted literal -/
def Regex.exactly (t : Bytes) : Regex where
  partialMatch s := decide (s = t)
  firstMatch s := if s = t then some 0 else none
  globalReplace rep s := if s = t then rep else s

/-- a pattern without anchors or word boundaries, given by the words it matches -/
def Regex.ofMatcher (m : Rewrite.Matcher UInt8) : Regex where
  partialMatch s := (Rewrite.find m s).isSome
  firstMatch s := Rewrite.find m s
  globalReplace rep s := Rewrite.replaceAll m rep s

def kChunkOverlap : Nat := 40

/-- the last `kChunkOverlap` bytes of a chunk, all of it when it is shorter -/
def chunkTail (chunk : Bytes) : Bytes :=
  if kChunkOverlap ≤ chunk.length then chunk.drop (chunk.length - kChunkOverlap) else chunk

/-- the text after the overlap, or all of it when it is shorter than the overlap -/
def cutOverlap (tail text : Bytes) : Bytes :=
  if tail.length ≤ text.length then text.drop tail.length else text

lemma cutOverlap_append (tail chunk : Bytes) : cutOverlap tail (tail ++ chunk) = chunk := by
  simp [cutOverlap]

/-! ## content filter -/

inductive FilterAction where
  | replace
  | truncate
  | warn
  deriving DecidableEq, Repr

def actionPriority : FilterAction → Nat
  | .replace => 2
  | .truncate => 1
  | .warn => 0

structure ContentPattern where
  name : String
  regex : Regex
  action : FilterAction
  replacement : Bytes

structure FilterResult where
  filtered : Bool := false
  modifiedText : Bytes
  matchedPatterns : List String := []
  actionTaken : FilterAction := .warn
  deriving DecidableEq

namespace ContentFilter

/-- the text after the action of a pattern that matches it -/
def act (pat : ContentPattern) (text : Bytes) : Bytes :=
  match pat.action with
  | .replace => pat.regex.globalReplace pat.replacement text
  | .truncate =>
    match pat.regex.firstMatch text with
    | some pos => text.take pos ++ bytes "[TRUNCATED]"
    | none => text
  | .warn => text

def applyPattern (r : FilterResult) (pat : ContentPattern) : FilterResult :=
  if pat.regex.partialMatch r.modifiedText then
    { filtered := true
      modifiedText := act pat r.modifiedText
      matchedPatterns := r.matchedPatterns ++ [pat.name]
      actionTaken :=
        if actionPriority r.actionTaken < actionPriority pat.action then pat.action
        else r.actionTaken }
  else r

variable (patterns : List ContentPattern)

def filter (text : Bytes) : FilterResult :=
  patterns.foldl applyPattern { modifiedText := text }

def chunkOutput (prevTail chunk : Bytes) : Bytes :=
  let result := filter patterns (prevTail ++ chunk)
  if result.filtered then cutOverlap prevTail result.modifiedText else chunk

def processChunk : ChunkStage Bytes :=
  fun prevTail chunk => (chunkTail chunk, .continue, chunkOutput patterns prevTail chunk)

end ContentFilter

/-! ## PII filter -/

structure PIIPattern where
  name : String
  regex : Regex
  replacement : Bytes

namespace PIIFilter

variable (patterns : List PIIPattern)

def mask (text : Bytes) : Bytes :=
  patterns.foldl (fun t pat => pat.regex.globalReplace pat.replacement t) text

def chunkOutput (prevTail chunk : Bytes) : Bytes :=
  cutOverlap prevTail (mask patterns (prevTail ++ chunk))

def processChunk : ChunkStage Bytes :=
  fun prevTail chunk => (chunkTail chunk, .continue, chunkOutput patterns prevTail chunk)

end PIIFilter

end AegisGate
