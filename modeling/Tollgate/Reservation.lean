import Tollgate.Pricing

/-!
# Reservations

Quota set aside for a request in flight. A reservation is settled by what the
request really used, or refunded, once: `canBecome` is the whole of its
lifecycle. Leaving it starts a `Job`, which whoever holds the books performs
later.
-/

namespace Tollgate

inductive ReservationState where
  | reserved
  | completed
  | refunded
deriving DecidableEq, Repr

namespace ReservationState

def canBecome (s next : ReservationState) : Bool := s = .reserved && next ≠ .reserved

def isTerminal (s : ReservationState) : Bool := s ≠ .reserved

def name : ReservationState → String
  | .reserved => "reserved"
  | .completed => "completed"
  | .refunded => "refunded"

def ofName? : String → Option ReservationState
  | "reserved" => some .reserved
  | "completed" => some .completed
  | "refunded" => some .refunded
  | _ => none

end ReservationState

/-- What settling or refunding needs: the amounts taken from the user and from the token, and
the price they were reckoned at. A trusted request takes nothing from its token. -/
structure Hold where
  requestId : String
  userId : Int
  tokenId : Int
  channelId : Int
  model : String
  quote : Quote
  userReserved : Int
  tokenReserved : Int

def Hold.isActive (h : Hold) : Bool := 0 < h.userReserved || 0 < h.tokenReserved

structure Reservation where
  hold : Hold
  group : String
  estimated : Int
  balanceBefore : Int
  state : ReservationState

inductive Job where
  | settle (hold : Hold) (usage : Usage)
  | refund (hold : Hold)

inductive LedgerError where
  | insufficient (need available : Int)
  | tokenInsufficient (need : Int)
  | userNotFound (userId : Int)
  | priceNotFound (model : String)
  | store (reason : String)
  | invalidTransition (source target : ReservationState)
deriving DecidableEq, Repr

namespace LedgerError

def kind : LedgerError → String
  | .insufficient .. => "Insufficient"
  | .tokenInsufficient _ => "TokenInsufficient"
  | .userNotFound _ => "UserNotFound"
  | .priceNotFound _ => "PriceNotFound"
  | .store _ => "Store"
  | .invalidTransition .. => "InvalidTransition"

def message : LedgerError → String
  | .insufficient need available =>
    "用户额度不足: 需要 " ++ toString need ++ ", 剩余 " ++ toString available
  | .tokenInsufficient need => "令牌额度不足: 需要 " ++ toString need
  | .userNotFound userId => "用户不存在: " ++ toString userId
  | .priceNotFound model => "模型 " ++ model ++ " 未配置价格"
  | .store reason => "额度存储错误: " ++ reason
  | .invalidTransition source target =>
    "预扣状态不允许从 " ++ source.name ++ " 变为 " ++ target.name

/-- A matter of balance, not of the request or the storage. -/
def isInsufficient : LedgerError → Bool
  | .insufficient .. | .tokenInsufficient .. => true
  | _ => false

end LedgerError

namespace Reservation

def setChannel (r : Reservation) (channelId : Int) : Reservation :=
  { r with hold.channelId := channelId }

def become (r : Reservation) (next : ReservationState) : Except LedgerError Reservation :=
  if r.state.canBecome next then .ok { r with state := next }
  else .error (.invalidTransition r.state next)

def consume (r : Reservation) (usage : Usage) : Except LedgerError (Reservation × Job) := do
  return (← r.become .completed, .settle r.hold usage)

def undo (r : Reservation) : Except LedgerError (Reservation × Job) := do
  return (← r.become .refunded, .refund r.hold)

/-- What is left to do when nobody holds the reservation any more. -/
def abandon (r : Reservation) : Option Job :=
  if r.state = .reserved ∧ r.hold.isActive then some (.refund r.hold) else none

end Reservation

end Tollgate
