import Hack.VM.Compilation

/-!
Listings: the source of a unit beside its assembly. Every source line is a row; behind a line with a
block stand the statements of that block, the instructions with their addresses counted from the
start of the unit.
-/

namespace Hack.VM

open Assembly Text

/-- One row of a listing. -/
inductive Row
  /-- A line with a block. -/
  | command (line : Line) (parsed : Command)
  /-- A line without a block: it is blank or it failed. -/
  | other (line : Line)
  /-- An instruction with its address. -/
  | instruction (address : Nat) (statement : Statement)
  /-- A statement that takes up no instruction. -/
  | mark (statement : Statement)
  deriving DecidableEq, Repr

/-- The part of a listing that is done, with the address of the next instruction and the blocks that
are still to come. -/
structure Listing where
  rows : Array Row := #[]
  address : Nat := 0
  blocks : List Block

namespace Listing

/-- Adds a statement. -/
def addStatement (listing : Listing) (statement : Statement) : Listing :=
  if statement.isInstruction then
    { listing with
      rows := listing.rows.push (.instruction listing.address statement)
      address := listing.address + 1 }
  else { listing with rows := listing.rows.push (.mark statement) }

/-- Adds a source line, and the block that belongs to it. -/
def addLine (listing : Listing) (line : Line) : Listing :=
  match listing.blocks with
  | block :: blocks =>
    if block.index = line.index then
      block.code.foldl addStatement
        { listing with rows := listing.rows.push (.command line block.command), blocks }
    else { listing with rows := listing.rows.push (.other line) }
  | [] => { listing with rows := listing.rows.push (.other line) }

end Listing

/-- The rows of the listing of a unit and its compilation. -/
def SourceUnit.rows (unit : SourceUnit) (c : Compilation) : Array Row :=
  (unit.lines.foldl Listing.addLine { blocks := c.blocks.toList }).rows

namespace Row

/-- The left margin of rows without an address. -/
def margin : String := padRight 19 "" ++ "|"

/-- The comment of a line as it is listed. -/
def comment (line : Line) : String :=
  match line.comment? with
  | some text => (Styled.dim ("// " ++ text)).render
  | none => ""

/-- The number of a line as it is listed. -/
def number (line : Line) : String := " " ++ padLeft 4 ' ' (toString line.number) ++ ": "

/-- The text of a row. -/
def render : Row → String
  | .command line parsed =>
    margin ++ number line ++ parsed.styled.render ++ " " ++ comment line
  | .other line =>
    if line.code.isEmpty then margin ++ number line ++ comment line
    else margin ++ number line ++ (Styled.strong .red line.code).render ++ " " ++ comment line
  | .instruction address statement =>
    "[" ++ hexadecimal 4 address ++ "] " ++ padRight 12 "" ++ "|       " ++ statement.styled.render
  | .mark statement => margin ++ "       " ++ statement.styled.render

end Row

/-- The lines of a listing: a head with the path, the rows, and a rule. -/
def SourceUnit.listing (unit : SourceUnit) (c : Compilation) : List String :=
  let dashes (n : Nat) := String.ofList (List.replicate n '-')
  let head := dashes 19 ++ "+------[" ++ unit.path ++ "]" ++ dashes (45 - unit.path.utf8ByteSize)
  let foot := dashes 19 ++ "+" ++ dashes 53
  head :: (unit.rows c).toList.map Row.render ++ [foot]

end Hack.VM
