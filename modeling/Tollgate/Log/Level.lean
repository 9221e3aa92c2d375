import Tollgate.Text.Blank
import Tollgate.Text.Integer

/-!
# Log levels

The levels that messages are filtered by, each for the messages of a target
or for all others. The environment comes before the configuration, and what
cannot be read is passed over.
-/

namespace Tollgate

inductive LogLevel where
  | off
  | error
  | warn
  | info
  | debug
  | trace
deriving DecidableEq, Repr

namespace LogLevel

def all : List LogLevel := [.off, .error, .warn, .info, .debug, .trace]

def name : LogLevel → String
  | .off => "off"
  | .error => "error"
  | .warn => "warn"
  | .info => "info"
  | .debug => "debug"
  | .trace => "trace"

def lowerAscii (c : Char) : Char :=
  if 'A' ≤ c ∧ c ≤ 'Z' then Char.ofNat (c.toNat + 32) else c

def ofText? (s : String) : Option LogLevel :=
  match Text.readUnsigned? s.toList with
  | some n => all[n]?
  | none => all.find? (·.name = String.ofList (s.toList.map lowerAscii))

/-- A process writes its log in one way, chosen by whoever comes first. -/
def installs (installedBefore : Bool) : Bool := !installedBefore

end LogLevel

structure LogRule where
  target : Option String
  level : LogLevel
deriving DecidableEq, Repr

namespace LogRule

def startsRule (c : Char) : Bool := c.isAlphanum || c ∈ ['-', ':', '_'] || 0x80 ≤ c.toNat

/-- A level, a target, or a target with its level. A target without one lets everything pass. -/
def ofText? (s : String) : Option LogRule :=
  let cs := Text.trimChars s.toList
  let front := cs.takeWhile (· ≠ '=')
  if !cs.head?.any startsRule || '[' ∈ front then none
  else
    match cs.drop front.length with
    | [] =>
      match LogLevel.ofText? (.ofList cs) with
      | some level => some ⟨none, level⟩
      | none => some ⟨some (.ofList cs), .trace⟩
    | [_] => some ⟨some (.ofList front), .trace⟩
    | _ :: level => (LogLevel.ofText? (.ofList level)).map (⟨some (.ofList front), ·⟩)

/-- Longer targets come first, and among them the later names; the rule for the rest is last. -/
def isBefore (r s : LogRule) : Bool :=
  match r.target, s.target with
  | some t, some u =>
    u.utf8ByteSize < t.utf8ByteSize || (u.utf8ByteSize = t.utf8ByteSize && u < t)
  | some _, none => true
  | none, _ => false

def insert (rules : List LogRule) (r : LogRule) : List LogRule :=
  let others := rules.filter (·.target ≠ r.target)
  others.filter (·.isBefore r) ++ r :: others.filter (!·.isBefore r)

def text (r : LogRule) : String := (r.target.elim "" (· ++ "=")) ++ r.level.name

def listOfText? (s : String) : Option (List LogRule) := do
  let rules ← ((s.splitOn ",").filter (· ≠ "")).mapM ofText?
  return if rules.isEmpty then [⟨none, .error⟩] else rules.foldl insert []

end LogRule

namespace LogLevel

def filter (environment : Option String) (configured : String) : String :=
  let rules := (environment.bind LogRule.listOfText?).or (LogRule.listOfText? configured)
  ",".intercalate ((rules.getD [⟨none, .info⟩]).map LogRule.text)

end LogLevel

end Tollgate
