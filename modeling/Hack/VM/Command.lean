import Hack.Text.Numeral
import Hack.Text.Style
import Hack.Word

/-!
The commands of the stack language: nine operators on the top of the stack, and moves between the
stack and the cells of eight segments.
-/

namespace Hack.VM

/-- An operator on the top of the stack. -/
inductive Operator
  | add
  | sub
  | neg
  | eq
  | gt
  | lt
  | and
  | or
  | not
  deriving DecidableEq, Repr

namespace Operator

/-- Every operator. -/
def all : List Operator := [.add, .sub, .neg, .eq, .gt, .lt, .and, .or, .not]

/-- The word for an operator. -/
def text : Operator → String
  | .add => "add"
  | .sub => "sub"
  | .neg => "neg"
  | .eq => "eq"
  | .gt => "gt"
  | .lt => "lt"
  | .and => "and"
  | .or => "or"
  | .not => "not"

/-- The operator that a word stands for. -/
def ofText? (s : String) : Option Operator := all.find? fun op => op.text == s

/-- Whether the operator compares two values. -/
def isComparison : Operator → Bool
  | .eq | .gt | .lt => true
  | .add | .sub | .neg | .and | .or | .not => false

theorem ofText?_text (op : Operator) : ofText? op.text = some op := by cases op <;> decide

end Operator

/-- Whether a move goes to the stack or away from it. -/
inductive Direction
  | push
  | pop
  deriving DecidableEq, Repr

namespace Direction

/-- Both directions. -/
def all : List Direction := [.push, .pop]

/-- The word for a direction. -/
def text : Direction → String
  | .push => "push"
  | .pop => "pop"

/-- The direction that a word stands for. -/
def ofText? (s : String) : Option Direction := all.find? fun direction => direction.text == s

theorem ofText?_text (direction : Direction) : ofText? direction.text = some direction := by
  cases direction <;> decide

end Direction

/-- A segment of memory cells. -/
inductive Segment
  /-- Not cells at all: the index itself. -/
  | constant
  /-- The cells from the address in `LCL` on. -/
  | locals
  /-- The cells from the address in `ARG` on. -/
  | arguments
  /-- The cells from the address in `THIS` on. -/
  | this
  /-- The cells from the address in `THAT` on. -/
  | that
  /-- Eight fixed cells. -/
  | temp
  /-- The registers `THIS` and `THAT` themselves. -/
  | pointer
  /-- Variables of one source unit. -/
  | statics
  deriving DecidableEq, Repr

namespace Segment

/-- Every segment. -/
def all : List Segment :=
  [.constant, .locals, .arguments, .this, .that, .temp, .pointer, .statics]

/-- The word for a segment. -/
def text : Segment → String
  | .constant => "constant"
  | .locals => "local"
  | .arguments => "argument"
  | .this => "this"
  | .that => "that"
  | .temp => "temp"
  | .pointer => "pointer"
  | .statics => "static"

/-- The segment that a word stands for. -/
def ofText? (s : String) : Option Segment := all.find? fun segment => segment.text == s

/-- The highest index for which the memory map keeps a cell, if it keeps a fixed number. -/
def limit? : Segment → Option Nat
  | .temp => some 7
  | .pointer => some 1
  | .constant | .locals | .arguments | .this | .that | .statics => none

theorem ofText?_text (segment : Segment) : ofText? segment.text = some segment := by
  cases segment <;> decide

end Segment

/-- A command of the stack language. -/
inductive Command
  | operate (op : Operator)
  | move (direction : Direction) (segment : Segment) (index : Word)
  deriving DecidableEq, Repr

namespace Command

open Text

/-- The text of a command. -/
def text : Command → String
  | .operate op => op.text
  | .move direction segment index =>
    direction.text ++ " " ++ segment.text ++ " " ++ toString index.toNat

/-- The text of a command in coloured columns. -/
def styled : Command → Styled
  | .operate op => Styled.coloured .red (padRight 5 op.text)
  | .move direction segment index =>
    Styled.coloured .red (padRight 5 direction.text) ++
      Styled.coloured .blue (padRight 9 segment.text) ++
      Styled.coloured .yellow (toString index.toNat)

/-- Whether the command compares two values. -/
def isComparison : Command → Bool
  | .operate op => op.isComparison
  | .move .. => false

end Command

/-- Why a text is not a command, or why a command cannot be compiled. -/
inductive CommandError
  | unknownCommand (word : String)
  | unknownSegment (word : String)
  | missingArgument
  | extraArgument (word : String)
  | badIndex (word : String)
  | popConstant
  | constantOutOfRange (index : Word)
  | indexOutOfRange (index : Word)
  | missingUnitName
  deriving DecidableEq, Repr

/-- The wording of an error. -/
def CommandError.message : CommandError → String
  | .unknownCommand word => "Unknown command: `" ++ word ++ "`"
  | .unknownSegment word => "Unknown segment: `" ++ word ++ "`"
  | .missingArgument => "More argument required"
  | .extraArgument word => "Unexpected argument: `" ++ word ++ "`"
  | .badIndex word => "Cannot parse `" ++ word ++ "` as index"
  | .popConstant => "Cannot pop into the constant segment"
  | .constantOutOfRange index =>
    "Constant `" ++ toString index.toNat ++ "` does not fit in 15 bits"
  | .indexOutOfRange index =>
    "Index `" ++ toString index.toNat ++ "` is outside the addressable range"
  | .missingUnitName => "Static segment requires a source unit name"

end Hack.VM
