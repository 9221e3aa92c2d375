import Tollgate.Json
import Tollgate.Ledger

/-!
# Reservations and the ledger's reports as JSON
-/

namespace Tollgate

def Quote.ratios (q : Quote) : List Json :=
  [.float q.inputRatio, .float q.outputRatio, .float q.groupRatio]

def Reservation.toJson (r : Reservation) : Json :=
  .obj [("request_id", .str r.hold.requestId), ("user_id", .int r.hold.userId),
    ("token_id", .int r.hold.tokenId), ("channel_id", .int r.hold.channelId),
    ("group", .str r.group), ("model", .str r.hold.model),
    ("quote", .list r.hold.quote.ratios),
    ("estimated", .int r.estimated), ("reserved", .int r.hold.userReserved),
    ("token_reserved", .int r.hold.tokenReserved), ("active", .bool r.hold.isActive),
    ("balance_before", .int r.balanceBefore), ("state", .str r.state.name)]

def LedgerError.toJson (e : LedgerError) : Json :=
  .obj [("error", .str e.kind), ("message", .str e.message),
    ("insufficient", .bool e.isInsufficient)]

def FlushReport.toJson (r : FlushReport) : Json :=
  .obj [("applied", .int r.applied), ("failed", .int r.failed)]

def Notice.toJson : Notice → Json
  | .low balance threshold => .obj [("low", .list [.int balance, .int threshold])]
  | .exhausted => .str "exhausted"

end Tollgate
