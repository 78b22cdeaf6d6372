import Hack.Machine.Basic
import Hack.Script
import Hack.Text.Numeral

/-!
Watch lists. A watch list names addresses of instructions; whenever one of them was executed, the
registers are shown, the stack if that is wanted, and some memory cells. It is written as a YAML
mapping from addresses to mappings with the keys `stack` and `ram`, both of which may be left out.
-/

namespace Hack

open Text

/-- What to show after an instruction. -/
structure Watch where
  stack : Bool := false
  cells : List Word := []
  deriving DecidableEq, Repr

/-- The watched addresses; of a repeated one the last entry counts. -/
abbrev WatchList := Table Word Watch

namespace Watch

/-- A memory address in a node. -/
def address (node : Yaml.Node) : Yaml.Decoder Word := BitVec.ofNat 16 <$> node.nat 65535

/-- What a node says to show. -/
def ofNode (node : Yaml.Node) : Yaml.Decoder Watch := do
  let fields ← node.fields ["stack", "ram"]
  let stack ← (fields.lookup "stack").mapM Yaml.Node.bool
  let cells ← (fields.lookup "ram").mapM fun ram => do (← ram.items).mapM address
  pure { stack := stack.getD false, cells := cells.getD [] }

/-- The rule between the parts of a section. -/
def rule : String := " +------------------------------------------------+"

/-- A number of a cell in six columns. -/
def column (w : Word) : String := padLeft 6 ' ' (Word.text w)

/-- The lines that show the registers. -/
def registerLines (m : Machine) : List String :=
  (" |   A: " ++ column m.a ++ " |   D: " ++ column m.d ++ " |  PC: " ++ hexadecimal 4 m.pc ++
    padRight 12 "" ++ "|") ::
  Register.all.map fun register =>
    " | " ++ padLeft 4 ' ' register.name ++ ": " ++ column (m.register register) ++
      padRight 35 "" ++ "|"

/-- The lines that show the stack: the cells from its first to the one below the address in `SP`,
which counts as no less than the first cell and no more than the screen. -/
def stackLines (m : Machine) : List String :=
  let bound := min (max (m.register .sp).toNat MemoryMap.stack) MemoryMap.screen
  (List.range' MemoryMap.stack (bound - MemoryMap.stack)).map fun address =>
    " | " ++ hexadecimal 4 address ++ " : " ++ column (m.get (.ofNat 16 address)) ++
      padRight 34 "" ++ "|"

/-- The line that shows a cell, with the name of its variable. -/
def cellLine (m : Machine) (address : Word) : String :=
  " | " ++ hexadecimal 4 address.toNat ++ " : " ++ column (m.get address) ++ "  " ++
    padRight 30 ((m.rom.variableAt? address.toNat).getD "") ++ "  |"

/-- The section printed after the instruction at an address. -/
def lines (watch : Watch) (address : Nat) (m : Machine) : List String :=
  (" +-- " ++ hexadecimal 4 address ++ " ---------------------------------------+") ::
  registerLines m ++ [rule] ++
  (if watch.stack then stackLines m ++ [rule] else []) ++
  watch.cells.map (cellLine m) ++ [rule]

end Watch

namespace WatchList

/-- The watch list in a node. -/
def ofNode (node : Yaml.Node) : Yaml.Decoder WatchList := do
  let watches ← (← node.entries).mapM fun (key, value) => do
    let address ← Watch.address key
    let watch ← Watch.ofNode value
    pure (address, watch)
  pure (Table.ofList watches)

/-- The watch list in a text. -/
def ofText? (s : String) : Option WatchList := do (← Yaml.Document.ofText? s).decode? ofNode

/-- The lines printed after the instruction at an address was executed. -/
def lines (watched : WatchList) (address : Nat) (m : Machine) : List String :=
  match watched.get? (.ofNat 16 address) with
  | some watch => watch.lines address m
  | none => []

end WatchList

end Hack
