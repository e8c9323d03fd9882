/-!
# Error codes

`include/aegisgate/error_codes.h`, for the codes the modelled functions return or throw.
-/

namespace AegisGate

inductive ErrorCode where
  | invalidApiKey
  | insufficientPermissions
  | contentFiltered
  | noModelAvailable
  | circuitBreakerOpen
  | upstreamTimeout
  | upstreamError
  | modelNotAllowed
  | noHealthyKeys
  | invalidRequest
  | payloadTooLarge
  | missingRequiredField
  | tenantNameExists
  | usernameExists
  | notInitialized
  | internalError
  deriving DecidableEq, Repr

namespace ErrorCode

def number : ErrorCode → Nat
  | invalidApiKey => 1001
  | insufficientPermissions => 1002
  | contentFiltered => 3004
  | noModelAvailable => 4001
  | circuitBreakerOpen => 4002
  | upstreamTimeout => 4003
  | upstreamError => 4004
  | modelNotAllowed => 4005
  | noHealthyKeys => 4007
  | invalidRequest => 5001
  | payloadTooLarge => 5002
  | missingRequiredField => 5003
  | tenantNameExists => 5010
  | usernameExists => 5011
  | notInitialized => 9001
  | internalError => 9002

def toAegisCode (code : ErrorCode) : String := "AEGIS-" ++ toString code.number

def toErrorType (code : ErrorCode) : String :=
  match code.number / 1000 with
  | 1 => "authentication_error"
  | 2 => "rate_limit_error"
  | 3 => "security_error"
  | 4 => "routing_error"
  | 5 => "validation_error"
  | 6 => "autonomy_error"
  | 9 => "system_error"
  | _ => "unknown_error"

def toHttpStatus : ErrorCode → Nat
  | invalidApiKey => 401
  | insufficientPermissions => 403
  | contentFiltered => 403
  | noModelAvailable => 503
  | circuitBreakerOpen => 503
  | upstreamTimeout => 504
  | upstreamError => 502
  | modelNotAllowed => 403
  | noHealthyKeys => 503
  | invalidRequest => 400
  | payloadTooLarge => 413
  | missingRequiredField => 400
  | tenantNameExists => 409
  | usernameExists => 409
  | notInitialized => 503
  | internalError => 500

def toDefaultMessage : ErrorCode → String
  | invalidApiKey => "Invalid or missing API key"
  | insufficientPermissions => "Insufficient permissions"
  | contentFiltered => "Response blocked by output guardrail"
  | noModelAvailable => "No model available for routing"
  | circuitBreakerOpen => "Service temporarily unavailable (circuit breaker open)"
  | upstreamTimeout => "Upstream model request timed out"
  | upstreamError => "All upstream models failed"
  | modelNotAllowed => "Model not in tenant whitelist"
  | noHealthyKeys => "No healthy API keys available for the selected provider"
  | invalidRequest => "Invalid request body"
  | payloadTooLarge => "Request body exceeds maximum allowed size"
  | missingRequiredField => "Required field is missing"
  | tenantNameExists => "Tenant name already exists"
  | usernameExists => "Username already exists in this tenant"
  | notInitialized => "Gateway not initialized"
  | internalError => "Internal server error"

end ErrorCode

structure GatewayError where
  httpStatus : Nat
  errorCode : String
  errorType : String
  message : String
  deriving DecidableEq, Repr

def makeError (code : ErrorCode) (messageOverride : String := "") : GatewayError where
  httpStatus := code.toHttpStatus
  errorCode := code.toAegisCode
  errorType := code.toErrorType
  message := if messageOverride = "" then code.toDefaultMessage else messageOverride

end AegisGate
