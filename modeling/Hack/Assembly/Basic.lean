import Hack.Instr.Comp
import Hack.Instr.Dest
import Hack.Instr.Jump
import Hack.Register

/-!
Assembly statements: the lines of an assembly program after reading. Labels and symbols may be any
text here; which of them have a written form is a matter of the reader.
-/

namespace Hack.Assembly

/-- What a load statement loads: a value, or the address that a symbol stands for. -/
inductive Operand
  | value (n : Word)
  | symbol (name : String)
  deriving DecidableEq, Repr

/-- One statement. Loads and computations take up a word of instruction memory, labels and comments
do not. -/
inductive Statement
  | load (operand : Operand)
  | compute (dest : Dest) (comp : Comp) (jump : Jump)
  | label (name : String)
  | comment (text : String)
  deriving DecidableEq, Repr

/-- An assembly program. -/
abbrev Program := List Statement

namespace Statement

/-- Load a value. -/
def value (n : Nat) : Statement := .load (.value (.ofNat 16 n))

/-- Load the address of a symbol. -/
def symbol (name : String) : Statement := .load (.symbol name)

/-- Load the address of a register. -/
def register (register : Register) : Statement := symbol register.name

/-- Store a result, without a branch. -/
def set (dest : Dest) (comp : Comp) : Statement := .compute dest comp .never

/-- Branch on a result that is stored nowhere. -/
def branch (comp : Comp) (jump : Jump) : Statement := .compute .none comp jump

/-- Whether the statement takes up a word of instruction memory. -/
def isInstruction : Statement → Bool
  | .load _ | .compute .. => true
  | .label _ | .comment _ => false

end Statement

/-- The number of instruction words that a program takes up. -/
def Program.wordCount (program : Program) : Nat := program.countP Statement.isInstruction

end Hack.Assembly
