import Hack.Machine.Memory
import Hack.Rom.Basic
import Hack.VM.Compiler

/-!
What the commands of the stack language mean, as changes of the data memory. The stack is that of
the calling convention: `SP` holds the address of the free cell above the top. Nothing keeps the
stack pointer, the base registers, the scratch cell and the cells of a segment apart. So every
change is one write after the other, in a fixed order, and every read sees the writes before it.

Static variables have no place of their own here: the meaning of a command is relative to a map
`statics` from their indexes to cells.
-/

namespace Hack.VM

/-- The word of a truth value: all bits one, or zero. -/
def truth (b : Bool) : Word := if b then -1 else 0

/-- What an operator does with the top of the stack. -/
inductive Action
  /-- The top value is replaced. -/
  | unary (f : Word → Word)
  /-- The two top values are replaced by one; the lower value is the first argument. -/
  | binary (f : Word → Word → Word)

/-- The meaning of an operator. Comparisons look at the sign of the difference, which wraps like
every sum of words. -/
def Operator.action : Operator → Action
  | .add => .binary (· + ·)
  | .sub => .binary (· - ·)
  | .neg => .unary (- ·)
  | .eq => .binary fun x y => truth (decide ((x - y).toInt = 0))
  | .gt => .binary fun x y => truth (decide (0 < (x - y).toInt))
  | .lt => .binary fun x y => truth (decide ((x - y).toInt < 0))
  | .and => .binary (· &&& ·)
  | .or => .binary (· ||| ·)
  | .not => .unary (~~~ ·)

/-- The register that holds the address of a segment's first cell, if there is one. -/
def Segment.base? : Segment → Option Register
  | .locals => some .lcl
  | .arguments => some .arg
  | .this => some .this
  | .that => some .that
  | .constant | .temp | .pointer | .statics => none

namespace Stack

/-- The address of the free cell above the top of the stack. -/
def pointer (memory : Memory) : Word := memory.get Register.sp.cell

/-- Puts a value on the stack: the value is written first, the stack pointer is raised after it. -/
def push (value : Word) (memory : Memory) : Memory :=
  let memory := memory.set (pointer memory) value
  memory.set Register.sp.cell (pointer memory + 1)

/-- Lowers the stack pointer, which then addresses the old top. -/
def lower (memory : Memory) : Memory := memory.set Register.sp.cell (pointer memory - 1)

/-- Takes the top of the stack to a cell. -/
def popTo (target : Word) (memory : Memory) : Memory :=
  let memory := lower memory
  memory.set target (memory.get (pointer memory))

end Stack

/-- The cell of a segment with an index; a constant has none. -/
def Segment.cell? (statics : Word → Word) (memory : Memory) (index : Word) : Segment → Option Word
  | .constant => none
  | .temp => some (.ofNat 16 MemoryMap.temp + index)
  | .pointer => some (.ofNat 16 MemoryMap.pointer + index)
  | .statics => some (statics index)
  | segment => segment.base?.map fun base => memory.get base.cell + index

/-- Memory after an operator. -/
def Operator.perform (op : Operator) (memory : Memory) : Memory :=
  match op.action with
  | .unary f =>
    let top := Stack.pointer memory - 1
    memory.set top (f (memory.get top))
  | .binary f =>
    let memory := Stack.lower memory
    let top := Stack.pointer memory
    let below := top - 1
    memory.set below (f (memory.get below) (memory.get top))

/-- Memory after a command. A pop through a base register leaves the address of its cell in the
scratch cell; a pop to a constant has no cell and does nothing. -/
def Command.perform (statics : Word → Word) (command : Command) (memory : Memory) : Memory :=
  match command with
  | .operate op => op.perform memory
  | .move direction segment index =>
    match direction, segment.cell? statics memory index with
    | .push, none => Stack.push index memory
    | .push, some cell => Stack.push (memory.get cell) memory
    | .pop, none => memory
    | .pop, some cell =>
      if segment.base?.isSome then
        Stack.popTo cell (memory.set (.ofNat 16 MemoryMap.scratch) cell)
      else Stack.popTo cell memory

/-- The cells that an assembled program keeps for the static variables of a source unit. -/
def staticCell (rom : Rom) (unit : String) (index : Word) : Word :=
  .ofNat 16 ((rom.cellOf? (staticSymbol unit index)).getD 0)

/-- Memory after a list of commands of one source unit, with its statics in the cells of an
assembled program. -/
def performAll (rom : Rom) (unit : String) (commands : List Command) (memory : Memory) : Memory :=
  commands.foldl (fun memory command => command.perform (staticCell rom unit) memory) memory

end Hack.VM
