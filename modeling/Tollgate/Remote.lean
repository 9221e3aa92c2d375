import Tollgate.Cache
import Tollgate.Limiter

/-!
# Faults of a remote store

The cache and the limiter may be kept in a remote store. A limiter runs
scripts there, so an answer that is an error, or a script that is not known,
is the script's failure; anything else is the store's.
-/

namespace Tollgate

inductive RemoteFault where
  | response
  | unknownScript
  | connection
  | authentication
  | wrongType
  | busy
  | readOnly
deriving DecidableEq, Repr

namespace RemoteFault

def all : List RemoteFault :=
  [.response, .unknownScript, .connection, .authentication, .wrongType, .busy, .readOnly]

def name : RemoteFault → String
  | .response => "response"
  | .unknownScript => "no_script"
  | .connection => "io"
  | .authentication => "auth"
  | .wrongType => "type"
  | .busy => "busy"
  | .readOnly => "readonly"

def ofName? (s : String) : Option RemoteFault := all.find? (·.name = s)

def toLimiter (f : RemoteFault) (reason : String) : LimiterFault :=
  match f with
  | .response | .unknownScript => .script reason
  | _ => .backend reason

def toCache (_ : RemoteFault) (reason : String) : CacheFault := .backend reason

end RemoteFault

end Tollgate
