import Hack.Assembly.Basic
import Hack.VM.Command
import Hack.VM.Label

/-!
The assembly code of single commands. The stack grows upwards from cell 256, and the register `SP`
holds the address of the free cell above its top. Code that pushes expects the value in `D`; code
that pops leaves it there. A pop to a cell behind a base address keeps that address in the scratch
cell, because `D` is needed for the value.

A command is refused only if the address or the constant that it needs does not fit a load
instruction, if it pops to the constant segment, or if it uses a static variable without a unit.
-/

namespace Hack.VM

open Assembly

namespace Code

/-- Puts `D` on the stack. -/
def pushD : Program :=
  [.register .sp, .set { a := true } (.y .m), .set { m := true } .d,
   .register .sp, .set { m := true } (.yPlusOne .m)]

/-- Takes the top of the stack into `D`. -/
def popD : Program :=
  [.register .sp, .set { a := true, m := true } (.yMinusOne .m), .set { d := true } (.y .m)]

/-- Makes `A` point at the top of the stack. -/
def top : Program := [.register .sp, .set { a := true } (.yMinusOne .m)]

/-- Takes the second operand into `D` and makes `A` point at the first. -/
def popOperands : Program := popD ++ [.set { a := true } (.yMinusOne .a)]

/-- An operator on two values. -/
def binary (comp : Comp) : Program := popOperands ++ [.set { m := true } comp]

/-- An operator on one value. -/
def unary (comp : Comp) : Program := top ++ [.set { m := true } comp]

/-- A comparison: all bits one if the difference of the values meets the condition, else zero. -/
def compare (jump : Jump) (labels : LabelPair) : Program :=
  popOperands ++
  [.set { d := true } (.yMinusD .m), .symbol labels.onTrue, .branch .d jump] ++
  top ++
  [.set { m := true } .zero, .symbol labels.finish, .branch .zero .always, .label labels.onTrue] ++
  top ++
  [.set { m := true } .minusOne, .label labels.finish]

/-- The code of an operator; a comparison uses the given labels. -/
def operate (labels : LabelPair) : Operator → Program
  | .add => binary (.dPlusY .m)
  | .sub => binary (.yMinusD .m)
  | .and => binary (.dAndY .m)
  | .or => binary (.dOrY .m)
  | .neg => unary (.negY .m)
  | .not => unary (.notY .m)
  | .eq => compare .eq labels
  | .gt => compare .gt labels
  | .lt => compare .lt labels

end Code

/-- How the cell of a segment is reached. -/
inductive Access
  /-- The value itself, which has no cell. -/
  | literal (value : Statement)
  /-- So many cells behind the address in a register. -/
  | indirect (base : Register) (offset : Statement)
  /-- A cell with a known address or name. -/
  | direct (address : Statement)
  deriving DecidableEq, Repr

/-- The load of an address so many cells behind a base, if a load instruction can hold it. -/
def loadOffset (base : Nat) (index : Word) : Except CommandError Statement :=
  if base + index.toNat ≤ Word.maxLiteral then .ok (.value (base + index.toNat))
  else .error (.indexOutOfRange index)

/-- The symbol of a static variable of a source unit. -/
def staticSymbol (unit : String) (index : Word) : String := unit ++ "." ++ toString index.toNat

/-- How a cell of a segment is reached from a source unit. -/
def access (unit : Option String) (index : Word) : Segment → Except CommandError Access
  | .constant =>
    if index.toNat ≤ Word.maxLiteral then .ok (.literal (.value index.toNat))
    else .error (.constantOutOfRange index)
  | .locals => (loadOffset 0 index).map (.indirect .lcl)
  | .arguments => (loadOffset 0 index).map (.indirect .arg)
  | .this => (loadOffset 0 index).map (.indirect .this)
  | .that => (loadOffset 0 index).map (.indirect .that)
  | .temp => (loadOffset MemoryMap.temp index).map .direct
  | .pointer => (loadOffset MemoryMap.pointer index).map .direct
  | .statics =>
    match unit with
    | some unit => .ok (.direct (.symbol (staticSymbol unit index)))
    | none => .error .missingUnitName

namespace Code

/-- Puts the content of a cell, or a value, on the stack. -/
def push : Access → Program
  | .literal value => [value, .set { d := true } (.y .a)] ++ pushD
  | .indirect base offset =>
    [offset, .set { d := true } (.y .a), .register base, .set { a := true } (.dPlusY .m),
     .set { d := true } (.y .m)] ++ pushD
  | .direct address => [address, .set { d := true } (.y .m)] ++ pushD

/-- Takes the top of the stack into a cell; a value has none. -/
def pop : Access → Except CommandError Program
  | .literal _ => .error .popConstant
  | .indirect base offset => .ok <|
    [offset, .set { d := true } (.y .a), .register base, .set { d := true } (.dPlusY .m),
     .symbol (cellName MemoryMap.scratch), .set { m := true } .d] ++
    popD ++
    [.symbol (cellName MemoryMap.scratch), .set { a := true } (.y .m), .set { m := true } .d]
  | .direct address => .ok (popD ++ [address, .set { m := true } .d])

/-- The code of a move. -/
def move (unit : Option String) (direction : Direction) (segment : Segment) (index : Word) :
    Except CommandError Program :=
  match direction with
  | .push => (access unit index segment).map push
  | .pop =>
    if segment = .constant then .error .popConstant else (access unit index segment).bind pop

end Code

/-- The state of a compilation: the source unit, if there is one, and its comparisons so far. -/
structure Compiler where
  unit : Option String := none
  labels : LabelCounter := {}
  deriving DecidableEq, Repr

namespace Compiler

/-- The compiler at the start of a source unit. -/
def start (unit : Option String) : Compiler := { unit }

/-- The compiler at the start of another source unit: labels are counted anew. -/
def switch (_ : Compiler) (unit : Option String) : Compiler := start unit

/-- The code of a command, and the compiler after it. Only a comparison changes it. -/
def command (c : Compiler) : Command → Except CommandError Program × Compiler
  | .operate op =>
    if op.isComparison then
      let labels := c.labels.next
      (.ok (Code.operate labels.labels op), { c with labels })
    else (.ok (Code.operate c.labels.labels op), c)
  | .move direction segment index => (Code.move c.unit direction segment index, c)

end Compiler

end Hack.VM
