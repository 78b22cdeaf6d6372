import Hack.VM.Command

/-!
Diagnostics of a compilation. Each belongs to a source line and is an error, a warning or a note.
-/

namespace Hack.VM

inductive Severity
  | error
  | warning
  | note
  deriving DecidableEq, Repr

/-- What there is to say about a line. -/
inductive Remark
  /-- The line is no command, or its command cannot be compiled. -/
  | failed (error : CommandError)
  /-- The index is beyond the cells that the memory map keeps for the segment. -/
  | beyondLimit (segment : Segment) (index : Word) (limit : Nat)
  /-- What the two cells of the pointer segment are. -/
  | pointerCells
  /-- Where the cells of the temp segment are. -/
  | tempCells
  deriving DecidableEq, Repr

namespace Remark

/-- How severe a remark is. -/
def severity : Remark → Severity
  | .failed _ => .error
  | .beyondLimit .. => .warning
  | .pointerCells | .tempCells => .note

/-- The wording of a remark. -/
def text : Remark → String
  | .failed error => error.message
  | .beyondLimit segment index limit =>
    "Index " ++ toString index.toNat ++ " is outside the " ++ segment.text ++ " segment (0-" ++
      toString limit ++ ")"
  | .pointerCells => "pointer 0 is THIS and pointer 1 is THAT"
  | .tempCells => "temp occupies RAM[5] to RAM[12]"

end Remark

/-- A remark on a source line, whose place is counted from zero. -/
structure Diagnostic where
  index : Nat
  remark : Remark
  deriving DecidableEq, Repr

namespace Diagnostic

/-- How severe a diagnostic is. -/
def severity (d : Diagnostic) : Severity := d.remark.severity

/-- The wording of a diagnostic. -/
def text (d : Diagnostic) : String := d.remark.text

/-- Whether the diagnostic is an error. -/
def isError (d : Diagnostic) : Bool := d.severity == .error

end Diagnostic

end Hack.VM
