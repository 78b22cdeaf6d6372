import Hack.Word

/-!
The memory map: the registers of the calling convention, the cells with a fixed role, and the names
that every assembly program may use without defining them.
-/

namespace Hack

/-- A memory cell with a fixed role in the calling convention. -/
inductive Register
  | sp
  | lcl
  | arg
  | this
  | that
  deriving DecidableEq, Repr

namespace Register

/-- Every register, by address. -/
def all : List Register := [.sp, .lcl, .arg, .this, .that]

/-- The number of a register's cell. -/
def address : Register → Nat
  | .sp => 0
  | .lcl => 1
  | .arg => 2
  | .this => 3
  | .that => 4

/-- The symbol of a register. -/
def name : Register → String
  | .sp => "SP"
  | .lcl => "LCL"
  | .arg => "ARG"
  | .this => "THIS"
  | .that => "THAT"

/-- The register that a symbol names. -/
def ofName? (s : String) : Option Register := all.find? fun register => register.name == s

/-- The register at an address. -/
def ofAddress? (n : Nat) : Option Register := all.find? fun register => register.address == n

/-- The cell of a register as an address. -/
def cell (register : Register) : Word := .ofNat 16 register.address

end Register

namespace MemoryMap

/-- The first of the two cells of the pointer segment. -/
def pointer : Nat := 3

/-- The first cell of the temp segment. -/
def temp : Nat := 5

/-- The cell in which compiled code keeps an address. -/
def scratch : Nat := 13

/-- The first cell for variables. -/
def firstVariable : Nat := 16

/-- The first cell of the stack; variables end before it. -/
def stack : Nat := 256

/-- The first cell of the screen. -/
def screen : Nat := 0x4000

/-- The cell of the keyboard. -/
def keyboard : Nat := 0x6000

/-- The number of cells of the data memory. -/
def ramSize : Nat := 0x8000

/-- The number of words of the instruction memory. -/
def romSize : Nat := 0x8000

end MemoryMap

/-- The numbered name of a low memory cell. -/
def cellName (n : Nat) : String := "R" ++ toString n

/-- The names with a fixed meaning and their addresses: the registers, sixteen numbered cells, the
screen and the keyboard. -/
def predefinedSymbols : List (String × Nat) :=
  Register.all.map (fun register => (register.name, register.address)) ++
  (List.range 16).map (fun n => (cellName n, n)) ++
  [("SCREEN", MemoryMap.screen), ("KBD", MemoryMap.keyboard)]

/-- The address of a name with a fixed meaning. -/
def predefined? (name : String) : Option Nat := predefinedSymbols.lookup name

end Hack
