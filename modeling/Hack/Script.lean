import Hack.Machine.Basic
import Hack.Table
import Hack.Yaml.Value

/-!
Test scripts. A script sets memory cells before a run, names the values that cells must have after
it, and may limit the run. It is written as a YAML mapping with the keys `ram`, `expect` and
`tmax`, each of which may be left out.
-/

namespace Hack

/-- The largest limit of a run. -/
def maxSteps : Nat := 0xFFFFFFFFFFFFFFFF

/-- A test of a program. Cells stand in the order in which they were first written, each with the
value written last. -/
structure Script where
  /-- The cells set before the run. -/
  ram : Table Word Word := {}
  /-- The cells checked after the run. -/
  expect : Table Word Word := {}
  /-- The greatest number of steps. -/
  limit : Option Nat := none

/-- A cell that does not hold what the script expects. -/
structure Mismatch where
  address : Word
  expected : Word
  actual : Word
  deriving DecidableEq, Repr

namespace Script

/-- The cells in a mapping from addresses to signed words. -/
def cells (node : Yaml.Node) : Yaml.Decoder (Table Word Word) := do
  let cells ← (← node.entries).mapM fun (key, value) => do
    let address ← key.nat 65535
    let content ← value.int (-32768) 32767
    pure (BitVec.ofNat 16 address, BitVec.ofInt 16 content)
  pure (Table.ofList cells)

/-- The script in a node. -/
def ofNode (node : Yaml.Node) : Yaml.Decoder Script := do
  let fields ← node.fields ["ram", "expect", "tmax"]
  let ram ← (fields.lookup "ram").mapM cells
  let expect ← (fields.lookup "expect").mapM cells
  let limit ← (fields.lookup "tmax").mapM (Yaml.Node.optional (Yaml.Node.nat maxSteps))
  pure { ram := ram.getD {}, expect := expect.getD {}, limit := limit.join }

/-- The script in a text. -/
def ofText? (s : String) : Option Script := do (← Yaml.Document.ofText? s).decode? ofNode

/-- The machine after the cells of a script are set. -/
def apply (script : Script) (m : Machine) : Machine :=
  script.ram.toList.foldl (fun m cell => m.set cell.1 cell.2) m

/-- The expected cells that hold something else, in the order of the script. -/
def check (script : Script) (m : Machine) : List Mismatch :=
  (script.expect.toList.filter fun cell => m.get cell.1 != cell.2).map fun cell =>
    ⟨cell.1, cell.2, m.get cell.1⟩

end Script

end Hack
