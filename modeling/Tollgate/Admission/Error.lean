import Tollgate.Reply
import Tollgate.Reservation
import Tollgate.Routing.Chooser
import Tollgate.Routing.Failure

/-!
# Refused requests

Why a request was not admitted, or could not go on, and the reply that its
sender gets.
-/

namespace Tollgate

/-- `other` is a reason given from outside. -/
inductive AuthFault where
  | noToken
  | unknownToken
  | tokenDisabled
  | tokenExpired
  | userDisabled
  | userMissing
  | other (reason : String)
deriving DecidableEq, Repr

def AuthFault.message : AuthFault → String
  | .noToken => "未提供令牌"
  | .unknownToken => "无效的令牌"
  | .tokenDisabled => "令牌已被禁用"
  | .tokenExpired => "令牌已过期"
  | .userDisabled => "用户已被禁用"
  | .userMissing => "令牌所属用户不存在"
  | .other reason => reason

inductive MissingPart where
  | token
  | group
  | channel
  | reservation
deriving DecidableEq, Repr

def MissingPart.message : MissingPart → String
  | .token => "上下文缺少令牌，认证步骤未执行"
  | .group => "上下文缺少用户分组，认证步骤未执行"
  | .channel => "上下文缺少渠道，路由步骤未执行"
  | .reservation => "上下文缺少预扣，额度步骤未执行"

inductive AdmissionError where
  | auth (fault : AuthFault)
  | tokenExhausted
  | rateLimited (group : String) (rpm : Nat)
  | routing (cause : RoutingError)
  | ledger (cause : LedgerError)
  | provider (failure : ProviderFailure)
  | missing (part : MissingPart)
  | internal (reason : String)
deriving DecidableEq, Repr

namespace AdmissionError

def kind : AdmissionError → String
  | .auth _ => "Auth"
  | .tokenExhausted => "TokenExhausted"
  | .rateLimited .. => "RateLimited"
  | .routing _ => "Routing"
  | .ledger _ => "Quota"
  | .provider _ => "Upstream"
  | .missing _ | .internal _ => "Internal"

def message : AdmissionError → String
  | .auth fault => "认证失败: " ++ fault.message
  | .tokenExhausted => "令牌额度已用尽"
  | .rateLimited group rpm =>
    "请求过于频繁: 分组 " ++ group ++ " 每分钟最多 " ++ toString rpm ++ " 次"
  | .routing cause => "路由错误: " ++ cause.message
  | .ledger cause => "额度错误: " ++ cause.message
  | .provider f => "上游错误 " ++ toString f.statusCode ++ ": " ++ f.message
  | .missing part => "内部错误: " ++ part.message
  | .internal reason => "内部错误: " ++ reason

def code : AdmissionError → ErrorCode
  | .auth _ => .authenticationFailed
  | .tokenExhausted => .quotaInsufficient
  | .rateLimited .. => .rateLimited
  | .routing (.noAvailableChannel ..) => .noAvailableChannel
  | .routing _ => .internalError
  | .ledger (.insufficient ..) | .ledger (.tokenInsufficient _) => .quotaInsufficient
  | .ledger (.priceNotFound _) => .invalidRequest
  | .ledger _ => .internalError
  | .provider f => .infer f.statusCode f.message
  | .missing _ | .internal _ => .internalError

def reply (e : AdmissionError) (requestId : Option String) : Reply :=
  .ofCode e.code e.message requestId

end AdmissionError

end Tollgate
