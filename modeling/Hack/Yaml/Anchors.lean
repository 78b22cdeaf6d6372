import Hack.Table
import Hack.Yaml.Node

/-!
The anchored nodes of a document. A node is anchored under a name; its anchor is numbered, when the
node starts, with the count of the names known until then, and an alias takes the number that its
name has where the alias stands. A name that is used again does not add to the count, so a later
new name may get the number of an earlier one. Of the nodes with the same number the one that starts
last counts, for the aliases before it too.
-/

namespace Hack.Yaml

/-- The anchored nodes of a document, as far as it was read. -/
structure Anchors where
  /-- The names with their numbers. -/
  numbers : Table String Nat := {}
  /-- The nodes in the order of their starts; one that was not read to its end is empty. -/
  nodes : Array Node := #[]
  /-- The place, among the nodes, of the one that counts for a number. -/
  latest : Table Nat Nat := {}
  /-- The places of the nodes that are being read, the innermost first. -/
  unfinished : List Nat := []

namespace Anchors

/-- The number that a name stands for. -/
def number? (a : Anchors) (name : String) : Option Nat := a.numbers.get? name

/-- The node that an alias with a number stands for. -/
def node? (a : Anchors) (number : Nat) : Option Node := do a.nodes[← a.latest.get? number]?

/-- Enters a name at the start of its node. -/
def start (a : Anchors) (name : String) : Anchors :=
  let number := a.numbers.size
  let place := a.nodes.size
  { numbers := a.numbers.insert name number
    nodes := a.nodes.push Node.empty
    latest := a.latest.insert number place
    unfinished := place :: a.unfinished }

/-- Enters the innermost node that is being read, once its end is reached. -/
def finish (a : Anchors) (node : Node) : Anchors :=
  match a.unfinished with
  | place :: rest => { a with nodes := a.nodes.setIfInBounds place node, unfinished := rest }
  | [] => a

end Anchors

end Hack.Yaml
