import Mathlib.Algebra.Order.Field.Rat
import Mathlib.Data.List.Infix
import AegisGate.Core.Pipeline
import AegisGate.Core.Types

/-!
# The inbound scanning stages

`InputPreprocessor::process`, `InjectionDetector::process`, the inbound `PIIFilter::process` and
`RuleEngine::evaluate`, with the two accessors of `RequestContext` they scan through.

* `Scanner`  what the stages take from elsewhere: Unicode normalisation, decoding of encoded
  segments, and the text of image references;
* `preprocess`  the normalised views, index by index;
* `view`  what a loop over the messages of a context sees;
* `InjectionDetector.process`, `InboundPii.process`, `RuleEngine.process`  the three verdicts.

All scanning is over bytes.  Auditing and metrics are left out.
-/

namespace AegisGate

open Json

structure Scanner where
  normalize : Bytes → Bytes
  /-- the decoded texts of the encoded segments of a text -/
  decodedSegments : Bytes → List Bytes
  /-- `extractImageRefText`, with its cap on decoded bytes -/
  imageRefText : Json → Nat → Except TypeError Bytes

def kDefaultImageScanDecodeBytes : Nat := 256 * 1024

structure ScanContext where
  messages : List Message
  model : String := ""
  targetModel : String := ""
  normalizedMessages : List Bytes := []
  imageScanMessages : List Bytes := []
  inputPreprocessed : Bool := false

def scanText (ctx : ScanContext) (i : Nat) : Bytes :=
  if ctx.inputPreprocessed && ctx.normalizedMessages.length == ctx.messages.length then
    ctx.normalizedMessages.getD i []
  else bytes (ctx.messages.getD i {}).content

def scanImageText (sc : Scanner) (ctx : ScanContext) (i : Nat) : Except TypeError Bytes :=
  if ctx.inputPreprocessed && ctx.imageScanMessages.length == ctx.messages.length then
    .ok (ctx.imageScanMessages.getD i [])
  else sc.imageRefText (ctx.messages.getD i {}).contentParts kDefaultImageScanDecodeBytes

/-- one round of a scanning loop: the message, its text and its image references -/
structure Scanned where
  msg : Message
  text : Bytes
  image : Except TypeError Bytes

def view (sc : Scanner) (ctx : ScanContext) : List Scanned :=
  (List.range ctx.messages.length).map (fun i =>
    ⟨ctx.messages.getD i {}, scanText ctx i, scanImageText sc ctx i⟩)

/-! ## injection detection -/

/-- `std::tolower` on one byte -/
def lowerByte (b : UInt8) : UInt8 := if 65 ≤ b ∧ b ≤ 90 then b + 32 else b

def lower (t : Bytes) : Bytes := t.map lowerByte

/-- `find(needle) != npos` -/
def hasSubstr (t needle : Bytes) : Bool := decide (needle <:+: t)

inductive InjectionSeverity where
  | low
  | medium
  | high
  deriving DecidableEq, Repr

structure InjectionResult where
  detected : Bool := false
  matchedPattern : String := ""
  severity : InjectionSeverity := .low
  confidence : ℚ := 0
  layer : String := ""

structure InjectionPattern where
  name : String
  partialMatch : Bytes → Bool
  severity : InjectionSeverity

structure HeuristicConfig where
  nestedQuotesThreshold : Int := 3
  instructionOverrideScore : ℚ := 7 / 10
  roleSwitchScore : ℚ := 8 / 10
  encodingAttemptScore : ℚ := 5 / 10

structure InjectionDetector where
  patterns : List InjectionPattern := []
  keywords : List String := []
  heuristic : HeuristicConfig := {}
  threshold : ℚ := 1 / 2
  loaded : Bool := false
  failOpen : Bool := false

namespace InjectionDetector

variable (d : InjectionDetector) (text : Bytes)

def keywordScan : InjectionResult :=
  match d.keywords.find? (fun kw => hasSubstr (lower text) (lower (bytes kw))) with
  | some kw =>
    { detected := true, matchedPattern := kw, severity := .high, confidence := 1,
      layer := "L1-keyword" }
  | none => {}

def regexScan : InjectionResult :=
  match d.patterns.find? (·.partialMatch text) with
  | some pat =>
    { detected := true, matchedPattern := pat.name, severity := pat.severity,
      confidence := 9 / 10, layer := "L1-regex" }
  | none => {}

/-- depth, whether a quote is open, and the greatest depth so far -/
def quoteStep (s : Int × Bool × Int) (b : UInt8) : Int × Bool × Int :=
  if b = 34 ∨ b = 39 ∨ b = 96 then
    let depth := if s.2.1 then s.1 - 1 else s.1 + 1
    (depth, !s.2.1, max s.2.2 depth)
  else s

def maxQuoteDepth : Int := (text.foldl quoteStep (0, false, 0)).2.2

def heuristicScan : InjectionResult :=
  let low := lower text
  let has (s : String) : Bool := hasSubstr low (bytes s)
  let step (fired : Bool) (points : ℚ) (name : String) (s : ℚ × String) : ℚ × String :=
    if fired then (s.1 + points, name) else s
  let s := step (decide (d.heuristic.nestedQuotesThreshold ≤ maxQuoteDepth text)) (3 / 10)
    "nested_quotes" (0, "")
  let s := step (has "instruction" && (has "override" || has "replace" || has "new "))
    d.heuristic.instructionOverrideScore "instruction_override" s
  let s := step (has "you are now" || has "act as" || has "pretend to be")
    d.heuristic.roleSwitchScore "role_switch" s
  let s := step (has "base64" || has "encoded") d.heuristic.encodingAttemptScore
    "encoding_evasion" s
  if d.threshold ≤ s.1 then
    { detected := true, matchedPattern := s.2, severity := .medium, confidence := s.1,
      layer := "L2-heuristic" }
  else {}

def detect : InjectionResult :=
  let kw := d.keywordScan text
  if kw.detected then kw
  else
    let re := d.regexScan text
    if re.detected then re else d.heuristicScan text

/-- one message; an image reference is looked at only when the text is clean -/
def flags (s : Scanned) : Except TypeError Bool :=
  if (d.detect s.text).detected then .ok true
  else do
    let image ← s.image
    pure (!image.isEmpty && (d.detect image).detected)

def scanLoop (d : InjectionDetector) : List Scanned → Except TypeError StageResult
  | [] => .ok .continue
  | s :: rest =>
    if isToolMessage s.msg then scanLoop d rest
    else do
      if ← d.flags s then pure .reject else scanLoop d rest

/-- without any rule loaded the detector passes or rejects everything -/
def verdict (v : List Scanned) : Except TypeError StageResult :=
  if !d.loaded && d.patterns.isEmpty && d.keywords.isEmpty then
    .ok (if d.failOpen then .continue else .reject)
  else scanLoop d v

def process (sc : Scanner) (d : InjectionDetector) (ctx : ScanContext) :
    Except TypeError StageResult :=
  d.verdict (view sc ctx)

end InjectionDetector

/-! ## preprocessing -/

structure Preprocessor where
  unicodeEnabled : Bool := true
  encodingEnabled : Bool := true
  injectionDetector : Option InjectionDetector := none
  maxImageDecodeBytes : Nat := kDefaultImageScanDecodeBytes

namespace Preprocessor

def scanDecodedSegments (p : Preprocessor) (segments : List Bytes) : Bool :=
  match p.injectionDetector with
  | none => false
  | some d => segments.any (fun t => (d.detect t).detected)

/-- the two normalised views of one message, `none` when an encoded segment is an injection -/
def preprocessOne (sc : Scanner) (p : Preprocessor) (msg : Message) :
    Except TypeError (Option (Bytes × Bytes)) :=
  if isToolMessage msg then .ok (some (bytes msg.content, []))
  else do
    let content := bytes msg.content
    let normalized := if p.unicodeEnabled then sc.normalize content else content
    let image ← sc.imageRefText msg.contentParts p.maxImageDecodeBytes
    let image := if p.unicodeEnabled && !image.isEmpty then sc.normalize image else image
    if p.encodingEnabled && p.scanDecodedSegments (sc.decodedSegments content) then pure none
    else pure (some (normalized, image))

def preprocessLoop (sc : Scanner) (p : Preprocessor) :
    List Message → Except TypeError (Option (List (Bytes × Bytes)))
  | [] => .ok (some [])
  | m :: ms => do
    match ← p.preprocessOne sc m with
    | none => pure none
    | some x => do
      match ← preprocessLoop sc p ms with
      | none => pure none
      | some xs => pure (some (x :: xs))

def process (sc : Scanner) (p : Preprocessor) (ctx : ScanContext) :
    Except TypeError (Option ScanContext) := do
  match ← p.preprocessLoop sc ctx.messages with
  | none => pure none
  | some xs =>
    pure (some { ctx with
      normalizedMessages := xs.map Prod.fst
      imageScanMessages := xs.map Prod.snd
      inputPreprocessed := true })

end Preprocessor

/-! ## PII masking of requests -/

/-- `RE2::GlobalReplace` of one PII pattern, with its replacement -/
structure MaskPattern where
  name : String
  globalReplace : Bytes → Bytes

namespace InboundPii

def mask (patterns : List MaskPattern) (text : Bytes) : Bytes :=
  patterns.foldl (fun t pat => pat.globalReplace t) text

/-- a message's content after the stage; `useNormalized` when the normalised view is aligned with
the messages -/
def maskContent (patterns : List MaskPattern) (useNormalized : Bool) (s : Scanned) : Bytes :=
  let content := bytes s.msg.content
  if useNormalized && s.text != content && mask patterns s.text != s.text then
    mask patterns s.text
  else mask patterns content

/-- the contents after the loop, `none` once an image reference holds PII -/
def maskLoop (patterns : List MaskPattern) (useNormalized : Bool) :
    List Scanned → Except TypeError (Option (List Bytes))
  | [] => .ok (some [])
  | s :: rest =>
    if s.msg.role = "system" ∨ isToolMessage s.msg then do
      let out ← maskLoop patterns useNormalized rest
      pure (out.map (bytes s.msg.content :: ·))
    else do
      let image ← s.image
      if !image.isEmpty && mask patterns image != image then pure none
      else do
        let out ← maskLoop patterns useNormalized rest
        pure (out.map (maskContent patterns useNormalized s :: ·))

def process (sc : Scanner) (patterns : List MaskPattern) (ctx : ScanContext) :
    Except TypeError (Option (List Bytes)) :=
  maskLoop patterns
    (ctx.inputPreprocessed && ctx.normalizedMessages.length == ctx.messages.length) (view sc ctx)

end InboundPii

/-! ## the rule engine -/

inductive RuleAction where
  | block
  | warn
  | modify
  | allow
  deriving DecidableEq, Repr

/-- a condition with its value; a regex that did not compile is `none` -/
inductive RuleCondition where
  | regexMatch (compiled : Option (Bytes → Bool))
  | keywordContains (value : String)
  | lengthCheck (value : String)
  | modelMatch (value : String)

structure Rule where
  id : String
  description : String := ""
  conditions : List RuleCondition
  action : RuleAction
  actionParam : String := ""
  enabled : Bool := true

structure RuleResult where
  matched : Bool := false
  ruleId : String := ""
  action : RuleAction := .allow
  detail : String := ""
  actionParam : String := ""
  deriving DecidableEq

namespace RuleEngine

/-- the separator `\x1E` -/
def separator : Bytes := [0x1E]

/-- one round of `extractText`: the text so far and the next message -/
def appendScanned (text : Bytes) (s : Scanned) : Except TypeError Bytes :=
  if isToolMessage s.msg then .ok text
  else do
    let text := (if text.isEmpty then text else text ++ separator) ++ s.text
    let image ← s.image
    pure (if image.isEmpty then text else text ++ separator ++ image)

def extractText (v : List Scanned) : Except TypeError Bytes := v.foldlM appendScanned []

/-- `std::stoul`: blanks, a sign, then the longest run of digits; `none` when it throws -/
def stoul (s : String) : Option Nat :=
  let cs := s.toList.dropWhile Char.isWhitespace
  let (neg, cs) := match cs with
    | '-' :: cs => (true, cs)
    | '+' :: cs => (false, cs)
    | cs => (false, cs)
  let digits := cs.takeWhile Char.isDigit
  if digits.isEmpty then none
  else
    let n := digits.foldl (fun n c => n * 10 + (c.toNat - '0'.toNat)) 0
    if 2 ^ 64 ≤ n then none else some (if neg then (2 ^ 64 - n) % 2 ^ 64 else n)

def evaluateCondition (model targetModel : String) (text : Bytes) : RuleCondition → Bool
  | .regexMatch (some partialMatch) => partialMatch text
  | .regexMatch none => false
  | .keywordContains value => hasSubstr (lower text) (lower (bytes value))
  | .lengthCheck value =>
    match stoul value with
    | some maxLen => decide (maxLen < text.length)
    | none => false
  | .modelMatch value => model == value || targetModel == value

/-- every condition reads the text anew, so an error surfaces at the first one evaluated -/
def conditionsHold (model targetModel : String) (text : Except TypeError Bytes) :
    List RuleCondition → Except TypeError Bool
  | [] => .ok true
  | c :: cs => do
    let t ← text
    if evaluateCondition model targetModel t c then conditionsHold model targetModel text cs
    else pure false

/-- `evaluateImpl` after the gate: the first enabled rule that has conditions, all of which hold -/
def evaluateRules (model targetModel : String) (text : Except TypeError Bytes) :
    List Rule → Except TypeError RuleResult
  | [] => .ok {}
  | r :: rs =>
    if !r.enabled || r.conditions.isEmpty then evaluateRules model targetModel text rs
    else do
      if ← conditionsHold model targetModel text r.conditions then
        pure ⟨true, r.id, r.action, r.description, r.actionParam⟩
      else evaluateRules model targetModel text rs

/-- `customRules` is the feature gate; the rules are those of the request's tenant -/
def evaluateImpl (sc : Scanner) (customRules : Bool) (rules : List Rule) (ctx : ScanContext) :
    Except TypeError RuleResult :=
  if !customRules then .ok { detail := "Enterprise feature disabled" }
  else evaluateRules ctx.model ctx.targetModel (extractText (view sc ctx)) rules

/-- the verdict of `processImpl`: only a `Block` rule rejects -/
def process (sc : Scanner) (customRules : Bool) (rules : List Rule) (ctx : ScanContext) :
    Except TypeError StageResult := do
  let result ← evaluateImpl sc customRules rules ctx
  pure (if result.matched && result.action == .block then .reject else .continue)

end RuleEngine

end AegisGate
