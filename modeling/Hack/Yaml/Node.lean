import Hack.Yaml.Scalar

/-!
The nodes of a YAML document, as a tree. An alias is a node of its own, which holds the number of
the anchored node that it stands for; so a tree is finite even if a node stands inside itself.
-/

namespace Hack.Yaml

/-- A node of a document. A scalar keeps the form in which it was written and its tag. -/
inductive Node
  | scalar (form : ScalarForm) (tag : Option String) (text : String)
  | sequence (items : List Node)
  | mapping (entries : List (Node × Node))
  | alias (number : Nat)

namespace Node

/-- The node that stands where none is written. -/
def empty : Node := .scalar .plain none ""

instance : Inhabited Node := ⟨empty⟩

mutual

/-- The number of parts that a node is written in: a scalar and an alias are one, and a collection
has a start and an end besides its members. -/
def parts : Node → Nat
  | .scalar .. => 1
  | .sequence items => 2 + partsOfItems items
  | .mapping entries => 2 + partsOfEntries entries
  | .alias _ => 1

/-- The number of parts of the items of a sequence. -/
def partsOfItems : List Node → Nat
  | [] => 0
  | item :: rest => item.parts + partsOfItems rest

/-- The number of parts of the entries of a mapping. -/
def partsOfEntries : List (Node × Node) → Nat
  | [] => 0
  | (key, value) :: rest => key.parts + value.parts + partsOfEntries rest

end

end Node

end Hack.Yaml
