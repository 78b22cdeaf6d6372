import Hack.Assembly.Printer
import Hack.VM.Diagnostic
import Hack.VM.SourceUnit
import Hack.VM.Compiler

/-!
Compiling a source unit, line by line. Every line that holds a command which can be compiled gives a
block of code; every other line that is not blank gives an error. An index beyond the cells that
the memory map keeps is compiled all the same, with a warning and a note.
-/

namespace Hack.VM

open Assembly

/-- The code of one command, with the place of its line. -/
structure Block where
  index : Nat
  command : Command
  code : Program
  deriving DecidableEq, Repr

/-- The blocks and diagnostics of a source unit, in the order of its lines. -/
structure Compilation where
  blocks : Array Block := #[]
  messages : Array Diagnostic := #[]
  deriving DecidableEq, Repr

/-- The warning and the note for an index beyond the cells of its segment. -/
def Command.remarks : Command → List Remark
  | .operate _ => []
  | .move _ segment index =>
    match segment.limit? with
    | none => []
    | some limit =>
      if limit < index.toNat then
        [.beyondLimit segment index limit, if segment = .pointer then .pointerCells else .tempCells]
      else []

namespace Compilation

/-- Notes a remark on a line. -/
def remark (c : Compilation) (line : Line) (remark : Remark) : Compilation :=
  { c with messages := c.messages.push ⟨line.index, remark⟩ }

/-- Compiles one more line. -/
def addLine (state : Compilation × Compiler) (line : Line) : Compilation × Compiler :=
  let (c, compiler) := state
  match line.command with
  | .ok none => (c, compiler)
  | .error error => (c.remark line (.failed error), compiler)
  | .ok (some command) =>
    let c := command.remarks.foldl (fun c remark => c.remark line remark) c
    match compiler.command command with
    | (.ok code, compiler) =>
      ({ c with blocks := c.blocks.push ⟨line.index, command, code⟩ }, compiler)
    | (.error error, compiler) => (c.remark line (.failed error), compiler)

/-- Whether some line failed. -/
def hasError (c : Compilation) : Bool := c.messages.any Diagnostic.isError

/-- The code of all blocks. -/
def program (c : Compilation) : Program := c.blocks.toList.flatMap Block.code

/-- The text of a block, behind its command as a comment if that is wanted. -/
def Block.render (annotate : Bool) (block : Block) : String :=
  (if annotate then (Statement.comment block.command.text).text ++ "\n" else "") ++ block.code.text

/-- The assembly text of a compilation, one statement a line. -/
def render (annotate : Bool) (c : Compilation) : String :=
  c.blocks.foldl (fun text block => text ++ Block.render annotate block) ""

end Compilation

/-- Compiles a source unit, its labels counted from one. -/
def SourceUnit.compile (unit : SourceUnit) : Compilation :=
  (unit.lines.foldl Compilation.addLine ({}, Compiler.start (some unit.name))).1

end Hack.VM
