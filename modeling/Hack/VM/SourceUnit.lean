import Hack.Path
import Hack.Symbol
import Hack.VM.Line

/-!
Source units: one source text of the stack language with its path and its name. The name is a symbol
and keeps the static variables of units apart; unless it is given it is the stem of the path.
-/

namespace Hack.VM

/-- The extension of source files. -/
def sourceExtension : String := "vm"

/-- The extension of files with compiled code. -/
def outputExtension : String := "asm"

/-- A source text with a path and a valid name. -/
structure SourceUnit where
  path : String
  name : String
  source : String
  isSymbol_name : isSymbol name = true
  deriving DecidableEq

namespace SourceUnit

/-- The unit with a name, which must be a symbol. -/
def ofName? (path name source : String) : Option SourceUnit :=
  if valid : isSymbol name = true then some ⟨path, name, source, valid⟩ else none

/-- The name that a path gives its unit: its stem, or nothing if it names no file. -/
def nameOf (path : String) : String := (Path.stem? path).getD ""

/-- The unit named after the stem of its path. -/
def ofPath? (path source : String) : Option SourceUnit := ofName? path (nameOf path) source

/-- The lines of a unit. -/
def lines (unit : SourceUnit) : List Line := Line.ofSource unit.source

/-- Where the code of a unit goes: beside its source. -/
def outputPath (unit : SourceUnit) : String := Path.withExtension unit.path outputExtension

end SourceUnit

end Hack.VM
