import Tollgate.Yaml.Node
import Tollgate.Yaml.Token.Lexer

/-!
# Reading YAML

Tokens make up nodes, as blocks or in brackets, and the nodes a document.
Anchors are numbered by how many names there were before. A name that is used
again takes the number that the next new name will take as well, and of the
nodes with one number the last is meant.
-/

namespace Tollgate.Yaml

-- ---------------------------------------------------------------------------
-- Scalars
-- ---------------------------------------------------------------------------

def coreTag (name : String) : String := "tag:yaml.org,2002:" ++ name

/-- A tagged scalar is null only by the tag of null. A literal block is read as more than a text
where its tag says so. -/
def scalarOf (tag : Option String) (style : Style) (s : String) : Scalar :=
  let p := plainScalar s
  match style, tag with
  | .plain, none => p
  | .plain, some t =>
    let null := t = coreTag "null"
    { p with isNull := null && isNullWord s, isFalseNull := null && !isNullWord s }
  | .quoted, _ => { text? := some s }
  | .literal, none => { text? := some s }
  | .literal, some t =>
    if t = coreTag "bool" then { text? := some s, bool? := p.bool? }
    else if t = coreTag "int" then { text? := some s, nat? := p.nat?, int? := p.int? }
    else if t = coreTag "float" then { text? := some s, float? := p.float? }
    else { text? := some s }

def blank : Node := .scalar (plainScalar "")

-- ---------------------------------------------------------------------------
-- Composition
-- ---------------------------------------------------------------------------

structure Anchor where
  name : String
  number : Nat
  node : Node

/-- The tokens still to come, the anchors in the order in which their nodes begin, and what the
handles of tags stand for. -/
structure Composition where
  tokens : List Token
  anchors : List Anchor := []
  handles : List (String × String) := []

abbrev Compose := StateT Composition Option

namespace Compose

def peek : Compose (Option Token) := return (← get).tokens.head?

def skip : Compose Unit := modify fun c => { c with tokens := c.tokens.tail }

def isNext (ts : List Token) : Compose Bool := return (← peek).any (ts.contains ·)

def accept (t : Token) : Compose Bool := do
  let found ← isNext [t]
  if found then skip
  return found

/-! ### Anchors and tags -/

def resolve (name : String) : Compose Node := do
  let some a := (← get).anchors.reverse.find? (·.name = name) | failure
  return .reference a.number

def declare (name : String) : Compose Nat := do
  let c ← get
  let number := (c.anchors.map (·.name)).eraseDups.length
  set { c with anchors := c.anchors ++ [Anchor.mk name number .sequence] }
  return c.anchors.length

def define (n : Node) (index : Nat) : Compose Unit :=
  modify fun c => { c with anchors := c.anchors.modify index ({ · with node := n }) }

def anchored (anchors : List Anchor) : List Node :=
  (List.range anchors.length).map fun n =>
    (anchors.reverse.find? (·.number = n)).elim .sequence (·.node)

def fullTag (t : Tag) : Compose String := do
  if t.handle = "" then return t.suffix
  let some (_, expansion) := (← get).handles.find? (·.1 = t.handle) | failure
  return expansion ++ t.suffix

def takeAnchor : Compose (Option String) := do
  let some (.anchor name) ← peek | return none
  skip
  return some name

def takeTag : Compose (Option Tag) := do
  let some (.tag t) ← peek | return none
  skip
  return some t

def properties : Compose (Option String × Option Tag) := do
  match ← takeAnchor with
  | some name => return (some name, ← takeTag)
  | none =>
    let tag ← takeTag
    let name ← if tag.isSome then takeAnchor else pure none
    return (name, tag)

/-! ### Nodes -/

def blockStops : List Token := [.key, .value, .blockEnd]

mutual

/-- A node. Outside of brackets it may be a block, and the value of a member may be a sequence
that is not indented. -/
def node (inBlock loose : Bool) : Nat → Compose Node
  | 0 => failure
  | fuel + 1 => do
    if let some (.reference name) ← peek then
      skip
      return ← resolve name
    let (name, tag) ← properties
    let full ← tag.mapM fullTag
    let anchor ← name.mapM declare
    let n ← content inBlock loose (name.isSome || tag.isSome) full fuel
    let _ ← anchor.mapM (define n)
    return n

/-- A node after its anchor and tag; there may be nothing more to it where it has one of them. An
exclamation mark alone is no tag of a scalar that is there. -/
def content (inBlock loose decorated : Bool) (tag : Option String) : Nat → Compose Node
  | 0 => failure
  | fuel + 1 => do
    match ← peek with
    | some (.scalar style s) =>
      skip
      return .scalar (scalarOf (tag.filter (· ≠ "!")) style s)
    | some .openList =>
      skip
      bracketItems true fuel
      return .sequence
    | some .openRecord =>
      skip
      return .mapping (← bracketMembers true fuel)
    | t =>
      if loose ∧ t = some .item then
        looseItems fuel
        return .sequence
      else if inBlock ∧ t = some .blockList then
        skip
        blockItems fuel
        return .sequence
      else if inBlock ∧ t = some .blockRecord then
        skip
        return .mapping (← blockMembers fuel)
      else if decorated then return .scalar (scalarOf tag .plain "")
      else failure

def nodeUnless (stops : List Token) (inBlock loose : Bool) : Nat → Compose Node
  | 0 => failure
  | fuel + 1 => do if ← isNext stops then return blank else node inBlock loose fuel

def blockItems : Nat → Compose Unit
  | 0 => failure
  | fuel + 1 => do
    if ← accept .item then
      let _ ← nodeUnless [.item, .blockEnd] true false fuel
      blockItems fuel
    else if !(← accept .blockEnd) then failure

/-- The items of a sequence that is not indented: it is over with the items. -/
def looseItems : Nat → Compose Unit
  | 0 => failure
  | fuel + 1 => do
    if ← accept .item then
      let _ ← nodeUnless (.item :: blockStops) true false fuel
      looseItems fuel

def blockMembers : Nat → Compose (List (Node × Node))
  | 0 => failure
  | fuel + 1 => do
    if ← accept .key then
      let key ← nodeUnless blockStops true true fuel
      let value ← if ← accept .value then nodeUnless blockStops true true fuel else pure blank
      return (key, value) :: (← blockMembers fuel)
    else if ← accept .blockEnd then return []
    else failure

def bracketItems (first : Bool) : Nat → Compose Unit
  | 0 => failure
  | fuel + 1 => do
    if ← accept .closeList then return
    if !first then
      if !(← accept .comma) then failure
    if ← accept .key then
      pair fuel
      bracketItems false fuel
    else if !(← accept .closeList) then
      let _ ← node false false fuel
      bracketItems false fuel

/-- A key and its value as an item. Where there is no key, whatever stands in its place is lost. -/
def pair : Nat → Compose Unit
  | 0 => failure
  | fuel + 1 => do
    if ← isNext [.value, .comma, .closeList] then skip
    else
      let _ ← node false false fuel
    if ← accept .value then
      let _ ← nodeUnless [.comma, .closeList] false false fuel

def bracketMembers (first : Bool) : Nat → Compose (List (Node × Node))
  | 0 => failure
  | fuel + 1 => do
    if ← accept .closeRecord then return []
    if !first then
      if !(← accept .comma) then failure
    if ← accept .key then
      let key ← nodeUnless [.value, .comma, .closeRecord] false false fuel
      let value ←
        if ← accept .value then nodeUnless [.comma, .closeRecord] false false fuel else pure blank
      return (key, value) :: (← bracketMembers false fuel)
    else if ← accept .closeRecord then return []
    else
      let key ← node false false fuel
      return (key, blank) :: (← bracketMembers false fuel)

end

/-! ### Documents -/

def directives : List Directive → List Token → Option (List Directive × List Token)
  | seen, .directive (.version major minor) :: ts =>
    let again := seen.any fun d => d matches .version ..
    if again ∨ major ≠ 1 ∨ (minor ≠ 1 ∧ minor ≠ 2) then none
    else directives (seen ++ [.version major minor]) ts
  | seen, .directive (.shorthand handle expansion) :: ts =>
    let again := seen.any fun d => match d with
      | .shorthand h _ => h = handle
      | .version .. => false
    if again then none else directives (seen ++ [.shorthand handle expansion]) ts
  | seen, ts => some (seen, ts)

def handlesOf (ds : List Directive) : List (String × String) :=
  ds.filterMap fun d => match d with
    | .shorthand handle expansion => some (handle, expansion)
    | .version .. => none

def document (ts : List Token) : Option (Document × List Token) := do
  let (ds, rest) ← directives [] ts
  let marked := rest.head? == some .documentStart
  if !marked && !ds.isEmpty then none
  let tokens := if marked then rest.tail else rest
  let handles := handlesOf ds ++ [("!", "!"), ("!!", coreTag "")]
  let isOver := match tokens with
    | [] | .documentStart :: _ | .documentEnd :: _ | .directive _ :: _ => true
    | _ => false
  if isOver && (marked || tokens.isEmpty) then some (blank.toDocument [], tokens)
  else
    let (n, c) ← (node true false (8 * tokens.length + 8)).run { tokens, handles }
    some (n.toDocument (Node.documents (anchored c.anchors) c.anchors.length), c.tokens)

end Compose

def readDocument? (s : String) : Option Document := do
  let (d, rest) ← Compose.document (← Token.ofText? s)
  if rest.all (· = .documentEnd) then some d else none

end Tollgate.Yaml
