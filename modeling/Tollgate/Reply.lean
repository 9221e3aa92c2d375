import Tollgate.Text.Blank
import Tollgate.Text.Caseless

/-!
# Replies to clients

The codes that a client sees instead of a response, and what goes with each.
-/

namespace Tollgate

inductive ErrorCode where
  | invalidRequest
  | authenticationFailed
  | rateLimited
  | quotaInsufficient
  | noAvailableChannel
  | providerTimeout
  | providerUnavailable
  | providerError
  | internalError
deriving DecidableEq, Repr

namespace ErrorCode

def all : List ErrorCode :=
  [.invalidRequest, .authenticationFailed, .rateLimited, .quotaInsufficient, .noAvailableChannel,
    .providerTimeout, .providerUnavailable, .providerError, .internalError]

def name : ErrorCode → String
  | .invalidRequest => "INVALID_REQUEST"
  | .authenticationFailed => "AUTHENTICATION_FAILED"
  | .rateLimited => "RATE_LIMITED"
  | .quotaInsufficient => "QUOTA_INSUFFICIENT"
  | .noAvailableChannel => "NO_AVAILABLE_CHANNEL"
  | .providerTimeout => "UPSTREAM_TIMEOUT"
  | .providerUnavailable => "UPSTREAM_UNAVAILABLE"
  | .providerError => "UPSTREAM_ERROR"
  | .internalError => "INTERNAL_ERROR"

def ofName? (s : String) : Option ErrorCode := all.find? (·.name = s)

def httpStatus : ErrorCode → Nat
  | .invalidRequest => 400
  | .authenticationFailed => 401
  | .quotaInsufficient => 403
  | .rateLimited => 429
  | .noAvailableChannel => 503
  | .providerTimeout => 504
  | .providerUnavailable => 503
  | .providerError => 502
  | .internalError => 500

def defaultMessage : ErrorCode → String
  | .invalidRequest => "请求参数无效"
  | .authenticationFailed => "认证失败"
  | .rateLimited => "请求过于频繁，请稍后重试"
  | .quotaInsufficient => "额度不足"
  | .noAvailableChannel => "当前分组下没有可用渠道"
  | .providerTimeout => "上游请求超时"
  | .providerUnavailable => "上游服务暂不可用"
  | .providerError => "上游服务返回错误"
  | .internalError => "服务内部错误"

def isRetryable : ErrorCode → Bool
  | .rateLimited | .providerTimeout | .providerUnavailable | .providerError => true
  | _ => false

def ofStatus (status : Nat) : ErrorCode :=
  if status ∈ [400, 404, 422] then .invalidRequest
  else if status = 401 then .authenticationFailed
  else if status ∈ [402, 403] then .quotaInsufficient
  else if status = 429 then .rateLimited
  else if status ∈ [408, 504] then .providerTimeout
  else if status ∈ [502, 503] then .providerUnavailable
  else if 500 ≤ status ∧ status ≤ 599 then .providerError
  else .internalError

/-- The code a provider's failure stands for: what its message mentions, or else its status. -/
def infer (status : Nat) (message : String) : ErrorCode :=
  let mentionsAny (markers : List String) := markers.any (Text.mentions message)
  if mentionsAny ["no available channel", "无可用渠道"] then .noAvailableChannel
  else if mentionsAny ["insufficient quota", "quota exceeded", "额度不足"] then .quotaInsufficient
  else if mentionsAny ["timeout", "超时"] then .providerTimeout
  else if mentionsAny ["rate limit", "too many requests", "请求过于频繁"] then .rateLimited
  else ofStatus status

end ErrorCode

structure Reply where
  code : ErrorCode
  message : String
  retryable : Bool
  requestId : Option String
deriving DecidableEq, Repr

namespace Reply

def ofCode (code : ErrorCode) (message : String) (requestId : Option String) : Reply where
  code := code
  message := if Text.isAllBlank message then code.defaultMessage else message
  retryable := code.isRetryable
  requestId := requestId

end Reply

end Tollgate
