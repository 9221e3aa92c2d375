import Tollgate.Dict
import Tollgate.Word

/-!
# Documents

What a structured text says, before it is known what it should be: scalars,
lists and records. A scalar carries every reading that its format allows of
its spelling, so one set of record readers serves each format. An unreadable
key is kept as none; a record that holds one is never read.
-/

namespace Tollgate

/-- `isNull` spells the absence of a value, `isBlank` is no spelling at all. What `isFalseNull`
claims to be absent while it spells something else. -/
structure Scalar where
  isNull : Bool := false
  isBlank : Bool := false
  isFalseNull : Bool := false
  bool? : Option Bool := none
  nat? : Option Nat := none
  int? : Option Int := none
  float? : Option Float := none
  text? : Option String := none

inductive Document where
  | scalar (s : Scalar)
  | list (items : List Document)
  | record (members : List (Option String × Document))

namespace Document

def scalar? : Document → Option Scalar
  | .scalar s => some s
  | _ => none

def isNull : Document → Bool
  | .scalar s => s.isNull
  | _ => false

def bool? (d : Document) : Option Bool := d.scalar? >>= Scalar.bool?
def float? (d : Document) : Option Float := d.scalar? >>= Scalar.float?
def text? (d : Document) : Option String := d.scalar? >>= Scalar.text?

def natBelow? (bound : Nat) (d : Document) : Option Nat := do
  let n ← d.scalar? >>= Scalar.nat?
  if n < bound then some n else none

def u16? : Document → Option Nat := natBelow? UInt16.size
def u32? : Document → Option Nat := natBelow? UInt32.size
def u64? : Document → Option Nat := natBelow? UInt64.size

def i64? (d : Document) : Option Int := do
  let n ← d.scalar? >>= Scalar.int?
  if Word.Fits n then some n else none

/-- One of a set of names, alone or as the only key of a record that maps it to nothing. -/
def named? {α : Type} (ofName? : String → Option α) : Document → Option α
  | .scalar s => s.text? >>= ofName?
  | .record [(some k, v)] => if v.isNull then ofName? k else none
  | _ => none

def dict? {α : Type} (read : Document → Option α) : Document → Option (Dict String α)
  | .scalar s => if s.isBlank then some .empty else none
  | .list _ => none
  | .record members =>
    (members.mapM fun (m : Option String × Document) => do some (← m.1, ← read m.2)).map Dict.ofList

end Document

-- ---------------------------------------------------------------------------
-- Records with known fields
-- ---------------------------------------------------------------------------

structure Fields where
  given : List (String × Document)

namespace Fields

/-- A record gives its fields by name, and names it does not know are passed over. A list
gives them in their order: all of them, or any number where `short` allows it. -/
def of? (names : List String) (short : Bool) : Document → Option Fields
  | .scalar s => if s.isBlank then some ⟨[]⟩ else none
  | .list items =>
    if items.length = names.length ∨ (short ∧ items.length < names.length) then
      some ⟨names.zip items⟩
    else none
  | .record members => do
    let members ← members.mapM fun (m : Option String × Document) => m.1.map (·, m.2)
    let known := members.filter (names.contains ·.1)
    if (known.map Prod.fst).Nodup then some ⟨known⟩ else none

def find? (f : Fields) (name : String) : Option Document :=
  (f.given.find? (·.1 = name)).map Prod.snd

variable {α : Type}

def required (f : Fields) (name : String) (read : Document → Option α) : Option α :=
  f.find? name >>= read

def withDefault (f : Fields) (name : String) (dflt : α) (read : Document → Option α) : Option α :=
  match f.find? name with
  | none => some dflt
  | some d => read d

def optional (f : Fields) (name : String) (read : Document → Option α) : Option (Option α) :=
  match f.find? name with
  | none => some none
  | some d =>
    if d.isNull then some none
    else if d.scalar?.any (·.isFalseNull) then none
    else (read d).map some

end Fields

end Tollgate
