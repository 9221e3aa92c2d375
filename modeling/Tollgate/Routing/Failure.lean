import Tollgate.Text.Caseless

/-!
# Failures of providers

Which failures are the channel's own fault, and which mean that it will not
recover by itself.
-/

namespace Tollgate

/-- `statusCode` is that of HTTP, or 0 where the network failed. -/
structure ProviderFailure where
  statusCode : Nat
  message : String
deriving DecidableEq, Repr

namespace ProviderFailure

def isChannelFault (f : ProviderFailure) : Bool :=
  f.statusCode ∈ [0, 401, 402, 403, 408, 429] || (500 ≤ f.statusCode && f.statusCode ≤ 599)

def fatalMarkers : List String :=
  ["invalid api key", "incorrect api key", "api key not valid", "account deactivated",
    "organization has been disabled", "insufficient_quota", "credit balance is too low", "billing"]

def disablesChannel (f : ProviderFailure) : Bool :=
  f.statusCode = 401 || fatalMarkers.any (Text.mentions f.message)

end ProviderFailure

end Tollgate
