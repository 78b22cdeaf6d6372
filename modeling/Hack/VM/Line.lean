import Hack.Text.Cut
import Hack.Text.Lines
import Hack.VM.Command.Reader

/-!
Source lines of the stack language. The first `//` of a line begins its comment; code and comment
stand without the blanks around them.
-/

namespace Hack.VM

/-- A line of a source text, with its place counted from zero. -/
structure Line where
  index : Nat
  raw : String
  deriving DecidableEq, Repr

namespace Line

/-- The line number as readers count. -/
def number (line : Line) : Nat := line.index + 1

/-- What stands before the comment. -/
def code (line : Line) : String :=
  String.ofList (Text.trim (Text.cutComment line.raw.toList).1)

/-- The comment, if there is one. -/
def comment? (line : Line) : Option String :=
  (Text.cutComment line.raw.toList).2.map fun comment => String.ofList (Text.trim comment)

/-- The command on a line; nothing if the line has no code. -/
def command (line : Line) : Except CommandError (Option Command) :=
  if line.code.isEmpty then .ok none
  else
    match Command.ofText line.code with
    | .ok command => .ok (some command)
    | .error error => .error error

/-- The lines of a source text. -/
def ofSource (source : String) : List Line :=
  (Text.lines source).zipIdx.map fun (raw, index) => ⟨index, raw⟩

end Line

end Hack.VM
