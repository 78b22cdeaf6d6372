import Hack.Instr.Basic
import Hack.Register
import Hack.Table

/-!
Instruction memory: the instructions of an assembled program with the tables of its labels and its
variables.
-/

namespace Hack

/-- An assembled program. Labels stand in the order of their definitions and variables in the order
of their addresses. -/
structure Rom where
  instrs : Array Instr := #[]
  labels : Table String Nat := {}
  vars : Table String Nat := {}

namespace Rom

/-- The number of instructions. -/
def size (rom : Rom) : Nat := rom.instrs.size

/-- The instruction at an address. -/
def get? (rom : Rom) (address : Nat) : Option Instr := rom.instrs[address]?

/-- The address of a label. -/
def label? (rom : Rom) (name : String) : Option Nat := rom.labels.get? name

/-- The cell of a variable. -/
def cellOf? (rom : Rom) (name : String) : Option Nat := rom.vars.get? name

/-- The variable in a cell. Variables fill the cells from the first one for variables on. -/
def variableAt? (rom : Rom) (address : Nat) : Option String :=
  if address < MemoryMap.firstVariable then none
  else rom.vars.keys[address - MemoryMap.firstVariable]?

end Rom

end Hack
