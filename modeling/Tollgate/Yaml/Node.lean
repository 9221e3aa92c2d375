import Tollgate.Document
import Tollgate.Yaml.Plain

/-!
# Nodes

A text as a tree of scalars, sequences and mappings, in which a node may stand
for another that has an anchor. What a reader is given is a document, where
each reference has been followed. A sequence has no reading as a document.
-/

namespace Tollgate.Yaml

/-- A `reference` goes by the number of an anchor. -/
inductive Node where
  | scalar (s : Scalar)
  | sequence
  | mapping (members : List (Node × Node))
  | reference (anchor : Nat)

def unread : Document := .scalar {}

def keyText : Document → Option String
  | .scalar s => s.text?
  | _ => none

namespace Node

mutual

def toDocument (anchored : List Document) : Node → Document
  | .scalar s => .scalar s
  | .sequence => unread
  | .mapping members => .record (memberDocuments anchored members)
  | .reference anchor => anchored.getD anchor unread

def memberDocuments (anchored : List Document) :
    List (Node × Node) → List (Option String × Document)
  | [] => []
  | (key, value) :: rest =>
    (keyText (key.toDocument anchored), value.toDocument anchored) ::
      memberDocuments anchored rest

end

/-- The documents of anchored nodes, in which references are followed so often, one through the
other. As often as there are anchors is enough for all but those that lead back to themselves. -/
def documents (anchored : List Node) : Nat → List Document
  | 0 => anchored.map fun _ => unread
  | depth + 1 => let known := documents anchored depth; anchored.map (·.toDocument known)

end Node

end Tollgate.Yaml
