import AegisGate.Core.Types
import AegisGate.Lib.Table

/-!
# The context of a request, and who picks its model

`core/context.h`, for the members that routing and everything after it read, `ConnectorRegistry`
(`gateway/connector/registry.cpp`) and the `Router` interface.  A router may change the context it is
given, and throws where it reads or writes `extra` at the wrong type.
-/

namespace AegisGate

structure TokenUsage where
  promptTokens : Int := 0
  completionTokens : Int := 0
  totalTokens : Int := 0
  deriving DecidableEq, Repr

structure RequestContext where
  requestId : String := ""
  tenantId : String := ""
  appId : String := ""
  chatRequest : ChatRequest := {}
  targetModel : String := ""
  routingDecisionReason : String := ""
  tokenUsage : TokenUsage := {}
  accumulatedResponse : String := ""
  hasTools : Bool := false
  streamRejected : Bool := false

/-- `ctx.chat_request.extra[key] = value` -/
def RequestContext.setExtra (ctx : RequestContext) (key : String) (value : Json) :
    Except Json.TypeError RequestContext := do
  let extra ← ctx.chatRequest.extra.setKey key value
  pure { ctx with chatRequest := { ctx.chatRequest with extra } }

structure ModelInfo where
  id : String
  tags : List String := []

structure ModelConnector where
  provider : String
  supportsModel : String → Bool

structure ConnectorRegistry where
  connectors : List ModelConnector := []
  modelInfos : Table ModelInfo.id := Table.empty

namespace ConnectorRegistry

variable (registry : ConnectorRegistry)

def findByModel (model : String) : Option ModelConnector :=
  registry.connectors.find? (·.supportsModel model)

def findModelInfo (model : String) : Option ModelInfo :=
  registry.modelInfos.find model

/-- in the order of the hash map, whatever it is -/
def allModelInfos : List ModelInfo := registry.modelInfos.rows

end ConnectorRegistry

abbrev Router :=
  ConnectorRegistry → RequestContext → Except Json.TypeError (String × RequestContext)

end AegisGate
