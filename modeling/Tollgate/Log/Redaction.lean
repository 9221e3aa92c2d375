import Tollgate.Log.Pattern
import Tollgate.Text.Blank

/-!
# Redaction

Credentials are struck out of messages before they are logged. The rules
apply one after the other, each to what the one before has left.
-/

namespace Tollgate.Redaction

open Pattern (literal atLeast)

def isAlphanumeric (c : Char) : Bool :=
  ('A' ≤ c && c ≤ 'Z') || ('a' ≤ c && c ≤ 'z') || ('0' ≤ c && c ≤ '9')

def isWordChar (c : Char) : Bool := isAlphanumeric c || c = '_' || c = '-'

def isKeyChar (c : Char) : Bool := isWordChar c || c = '.'

def isQuoteMark (c : Char) : Bool := c = '"' || c = '\''

def isAssignment (c : Char) : Bool := c = ':' || c = '='

def isSecretChar (c : Char) : Bool :=
  !(Text.isBlank c || isQuoteMark c || c = ',' || c = '\x7d')

/-- A name, an assignment sign and a value, either of which may stand in quotes. -/
def assigned (name : Pattern) (value : CharClass) : Pattern :=
  name ++ [.optional isQuoteMark, .many Text.isBlank, .one isAssignment, .many Text.isBlank,
    .optional isQuoteMark] ++ atLeast 1 value

def bearer : Pattern :=
  literal "Bearer" ++ atLeast 1 Text.isBlank ++ atLeast 1 isKeyChar

def apiKey : Pattern :=
  assigned (literal "api" ++ [.optional fun c => c = '_' || c = '-'] ++ literal "key") isKeyChar

def authorization : Pattern :=
  assigned (.one (fun c => c = 'A' || c = 'a') :: literal "uthorization")
    fun c => isKeyChar c || Text.isBlank c

def tokenKey : Pattern := assigned (literal "token_key") isKeyChar

def password : Pattern := assigned (literal "password") isSecretChar

def secretKey : Pattern := .literal "sk-" ++ atLeast 6 isWordChar

def rules : List (Pattern × String) :=
  [(bearer, "Bearer ***"), (apiKey, "api_key: ***"), (authorization, "authorization: ***"),
    (tokenKey, "token_key: ***"), (password, "password: ***"), (secretKey, "sk-***")]

def redactChars (cs : List Char) : List Char :=
  rules.foldl (fun cs rule => Pattern.replaceAll rule.1 rule.2.toList cs) cs

def redact (message : String) : String := .ofList (redactChars message.toList)

def mask (key : String) : String :=
  let cs := key.toList
  if cs.length ≤ 8 then "***" else .ofList (['*', '*', '*'] ++ cs.drop (cs.length - 4))

end Tollgate.Redaction
