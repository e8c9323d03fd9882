import AegisGate.Core.Json

/-!
# Chat messages and requests

`include/aegisgate/types.h` and the parsing loop of `ApiController::chatCompletions`.

* `extractMultimodalText`, `rebuildMultimodalContent`  the text of a multimodal content array;
* `isToolMessage`  the predicate the scanning stages skip on;
* `parseMessage`, `parseChatRequest`  a request body, with the type errors that turn it into a 400;
* `Message.upstreamContent`  the content that is sent upstream.
-/

namespace AegisGate

open Json

structure ToolCall where
  id : String := ""
  type : String := "function"
  function : Json := .null

structure Message where
  role : String := ""
  content : String := ""
  contentParts : Json := .null
  toolCalls : List ToolCall := []
  toolCallId : String := ""
  name : String := ""

structure ChatRequest where
  model : String := ""
  messages : List Message := []
  temperature : Option ℚ := none
  maxTokens : Option Int := none
  stream : Bool := false
  extra : Json := .null
  tools : Json := .null
  toolChoice : Json := .null
  /-- not read from a request body -/
  metadata : Option (List (String × String)) := none

def isToolMessage (msg : Message) : Bool :=
  msg.role == "tool" || !msg.toolCalls.isEmpty

/-! ## multimodal content -/

/-- `part.is_object() && part.value("type", "") == "text"` -/
def isTextPart (part : Json) : Except TypeError Bool :=
  if part.isObject then do
    let t ← part.valueStr "type" ""
    pure (t == "text")
  else pure false

def appendText (text : String) : List Json → Except TypeError String
  | [] => .ok text
  | part :: parts => do
    if ← isTextPart part then
      let t ← part.valueStr "text" ""
      appendText ((if text = "" then text else text ++ "\n") ++ t) parts
    else appendText text parts

def extractMultimodalText : Json → Except TypeError String
  | .arr parts => appendText "" parts
  | _ => .ok ""

def textPart (text : String) : Json := .obj [("text", .str text), ("type", .str "text")]

/-- the loop of `rebuildMultimodalContent`, with its `text_emitted` flag -/
def rebuildParts (text : String) : Bool → List Json → Except TypeError (Bool × List Json)
  | emitted, [] => .ok (emitted, [])
  | emitted, part :: parts => do
    if ← isTextPart part then
      let (e, out) ← rebuildParts text true parts
      pure (e, if emitted then out else textPart text :: out)
    else
      let (e, out) ← rebuildParts text emitted parts
      pure (e, part :: out)

/-- what `out.insert(out.begin(), {…})` inserts: the overload for an initializer list is taken, and
each of its two pairs of strings becomes an array -/
def insertedPairs (text : String) : List Json :=
  [.arr [.str "type", .str "text"], .arr [.str "text", .str text]]

def rebuildMultimodalContent (parts : Json) (text : String) : Except TypeError Json :=
  match parts with
  | .arr l => do
    let (emitted, out) ← rebuildParts text false l
    pure (.arr (if emitted then out else insertedPairs text ++ out))
  | _ => .ok (.arr (insertedPairs text))

/-! ## parsing a request body -/

def parseToolCall (tc : Json) : Except TypeError ToolCall := do
  let id ← tc.valueStr "id" ""
  let type ← tc.valueStr "type" "function"
  pure { id, type, function := (tc.find? "function").getD .null }

/-- `content` and `content_parts`; a value that is neither text nor an array leaves both empty -/
def parseContent (m : Json) : Except TypeError (String × Json) :=
  match m.find? "content" with
  | some (.str s) => .ok (s, .null)
  | some (.arr l) => do
    let text ← extractMultimodalText (.arr l)
    pure (text, .arr l)
  | _ => .ok ("", .null)

/-- the tool calls of a message; a `tool_calls` that is not an array is ignored -/
def parseToolCalls (m : Json) : Except TypeError (List ToolCall) :=
  match m.find? "tool_calls" with
  | some (.arr l) => l.mapM parseToolCall
  | _ => .ok []

def parseMessage (m : Json) : Except TypeError Message := do
  let role ← m.valueStr "role" "user"
  let (content, parts) ← parseContent m
  let toolCalls ← parseToolCalls m
  let toolCallId ← m.valueStr "tool_call_id" ""
  let name ← m.valueStr "name" ""
  pure
    { role, content, contentParts := parts, toolCalls,
      toolCallId, name }

def getDouble : Json → Except TypeError ℚ
  | .int n => .ok n
  | .float q => .ok q
  | _ => .error ⟨302⟩

/-- `get<int>()`, which unlike `get<double>()` takes a boolean; before the conversion to 32 bits -/
def getInt : Json → Except TypeError Int
  | .int n => .ok n
  | .float q => .ok (if 0 ≤ q then q.floor else -(-q).floor)
  | .bool b => .ok (if b then 1 else 0)
  | _ => .error ⟨302⟩

def parseChatRequest (j : Json) : Except TypeError ChatRequest := do
  let model ← j.valueStr "model" ""
  let messages ← ((j.find? "messages").getD .null).elems.mapM parseMessage
  let temperature ← (j.find? "temperature").mapM getDouble
  let maxTokens ← (j.find? "max_tokens").mapM getInt
  let stream ← j.valueBool "stream" false
  pure
    { model, messages, temperature, maxTokens,
      stream, extra := (j.find? "extra").getD .null,
      tools := (j.find? "tools").getD .null, toolChoice := (j.find? "tool_choice").getD .null }

/-! ## the content of a message upstream -/

def hasParts : Json → Bool
  | .arr (_ :: _) => true
  | _ => false

def Message.upstreamContent (m : Message) : Except TypeError Json :=
  if hasParts m.contentParts then rebuildMultimodalContent m.contentParts m.content
  else if m.content ≠ "" ∨ m.toolCalls = [] then .ok (.str m.content)
  else .ok .null

end AegisGate
