import Hack.Assembly.Basic
import Hack.Symbol
import Hack.Text.Blank
import Hack.Text.Cut
import Hack.Text.Numeral

/-!
Reading one line of assembly text. What follows the first `//` is dropped and so are all blanks; the
rest is empty, or it is

* `@` and an operand: digits of a value up to 32767, or a symbol;
* a symbol in brackets, which defines a label;
* a computation, after a destination and `=` if there is one, before `;` and a mnemonic if there is
  one.

Fields are found by the first `=` and the first `;` behind it, so the error of a wrong line names
the first field that is wrong.
-/

namespace Hack.Assembly

/-- Why a line is not a statement; each cause carries the text at fault. -/
inductive SyntaxError
  | emptyAddress
  | addressOutOfRange (text : String)
  | invalidSymbol (text : String)
  | invalidLabel (text : String)
  | unknownComp (text : String)
  | unknownDest (text : String)
  | unknownJump (text : String)
  deriving DecidableEq, Repr

/-- The wording of an error. -/
def SyntaxError.message : SyntaxError → String
  | .emptyAddress => "Empty address"
  | .addressOutOfRange text => "Address out of range: `" ++ text ++ "`"
  | .invalidSymbol text => "Invalid symbol: `" ++ text ++ "`"
  | .invalidLabel text => "Invalid label: `" ++ text ++ "`"
  | .unknownComp text => "Unknown comp: `" ++ text ++ "`"
  | .unknownDest text => "Unknown dest: `" ++ text ++ "`"
  | .unknownJump text => "Unknown jump: `" ++ text ++ "`"

/-- The computation that a field spells. -/
def readComp (s : String) : Except SyntaxError Comp :=
  match Comp.ofText? s with
  | some comp => .ok comp
  | none => .error (.unknownComp s)

/-- The destination that a field spells; an empty field is no destination. -/
def readDest (s : String) : Except SyntaxError Dest :=
  match Dest.ofText? s with
  | some dest => .ok dest
  | none => .error (.unknownDest s)

/-- The branch condition that a field names; an empty field is an error. -/
def readJump (s : String) : Except SyntaxError Jump :=
  match Jump.ofText? s with
  | some jump => .ok jump
  | none => .error (.unknownJump s)

/-- The operand of a load statement. -/
def readOperand (s : List Char) : Except SyntaxError Operand :=
  if s.isEmpty then .error .emptyAddress
  else if Text.allDigits s then
    match Text.readDecimal? Word.maxLiteral s with
    | some n => .ok (.value (.ofNat 16 n))
    | none => .error (.addressOutOfRange (String.ofList s))
  else if isSymbolChars s then .ok (.symbol (String.ofList s))
  else .error (.invalidSymbol (String.ofList s))

/-- The label in the characters behind an opening bracket, if they are a symbol and the closing
bracket. -/
def bracketed? (inner : List Char) : Option (List Char) :=
  if inner.getLast? = some ')' && isSymbolChars inner.dropLast then some inner.dropLast else none

/-- A computation and, behind a `;`, its branch condition. -/
def readBranch (s : List Char) : Except SyntaxError (Comp × Jump) :=
  match Text.cutAt? ';' s with
  | some (comp, jump) => do
    let comp ← readComp (String.ofList comp)
    let jump ← readJump (String.ofList jump)
    pure (comp, jump)
  | none => do
    let comp ← readComp (String.ofList s)
    pure (comp, .never)

/-- A whole computation statement. -/
def readCompute (s : List Char) : Except SyntaxError Statement :=
  match Text.cutAt? '=' s with
  | some (dest, rest) => do
    let dest ← readDest (String.ofList dest)
    let (comp, jump) ← readBranch rest
    pure (.compute dest comp jump)
  | none => do
    let (comp, jump) ← readBranch s
    pure (.compute .none comp jump)

/-- The statement in a text without blanks and comments; nothing if the text is empty. -/
def readCode : List Char → Except SyntaxError (Option Statement)
  | [] => .ok none
  | '@' :: operand => do
    let operand ← readOperand operand
    pure (some (.load operand))
  | '(' :: inner =>
    match bracketed? inner with
    | some name => .ok (some (.label (String.ofList name)))
    | none => .error (.invalidLabel (String.ofList ('(' :: inner)))
  | code => do
    let statement ← readCompute code
    pure (some statement)

/-- The part of a line that counts: what stands before the first `//`, without blanks. -/
def codeOf (line : String) : List Char := Text.squeeze (Text.cutComment line.toList).1

/-- The statement on a line; nothing if the line is blank or a comment. -/
def readLine (line : String) : Except SyntaxError (Option Statement) := readCode (codeOf line)

end Hack.Assembly
