import Hack.Assembly.Reader
import Hack.Rom.Basic
import Hack.Text.Lines

/-!
Assembling a program in two passes. The first gives every label the number of instruction words
before its definition; the second turns every load and computation into an instruction. A symbol
stands for the label of its name wherever that is defined, else for the predefined address, else for
a variable, and variables get the cells from 16 on in the order of their first use.

The first fault found decides the error: a line that cannot be read, then a label defined twice,
then a program that is too long, then a variable for which no cell is left.
-/

namespace Hack

open Assembly

/-- Why a program cannot be assembled. -/
inductive AssembleError
  /-- A line that cannot be read, with its place. -/
  | badLine (place : String) (cause : SyntaxError)
  | duplicateLabel (name : String)
  | romOverflow
  | variableOverflow (name : String)
  deriving DecidableEq, Repr

/-- The wording of an error. -/
def AssembleError.message : AssembleError → String
  | .badLine place cause => place ++ ": " ++ cause.message
  | .duplicateLabel name => "Label `" ++ name ++ "` defined twice"
  | .romOverflow => "Program does not fit in " ++ toString MemoryMap.romSize ++ " ROM words"
  | .variableOverflow name => "No variable cell left for `" ++ name ++ "`"

namespace Assembly.Program

/-- Collects the labels of a program whose first instruction has the given address. -/
def labelsFrom (address : Nat) (labels : Table String Nat) :
    Program → Except AssembleError (Table String Nat)
  | [] => .ok labels
  | .label name :: rest =>
    if labels.contains name then .error (.duplicateLabel name)
    else labelsFrom address (labels.insert name address) rest
  | statement :: rest =>
    labelsFrom (if statement.isInstruction then address + 1 else address) labels rest

/-- The labels of a program with their addresses. -/
def labels (program : Program) : Except AssembleError (Table String Nat) :=
  labelsFrom 0 {} program

/-- The address of a symbol, and the variables after its use. -/
def resolve (labels vars : Table String Nat) (name : String) :
    Except AssembleError (Nat × Table String Nat) :=
  match labels.get? name with
  | some address => .ok (address, vars)
  | none =>
    match predefined? name with
    | some address => .ok (address, vars)
    | none =>
      match vars.get? name with
      | some address => .ok (address, vars)
      | none =>
        let address := MemoryMap.firstVariable + vars.size
        if address < MemoryMap.stack then .ok (address, vars.insert name address)
        else .error (.variableOverflow name)

/-- Appends the instructions of a program to those assembled before. -/
def instrsFrom (labels vars : Table String Nat) (instrs : Array Instr) :
    Program → Except AssembleError (Array Instr × Table String Nat)
  | [] => .ok (instrs, vars)
  | .load (.value n) :: rest => instrsFrom labels vars (instrs.push (.load n)) rest
  | .load (.symbol name) :: rest =>
    match resolve labels vars name with
    | .ok (address, vars) =>
      instrsFrom labels vars (instrs.push (.load (.ofNat 16 address))) rest
    | .error error => .error error
  | .compute dest comp jump :: rest =>
    instrsFrom labels vars (instrs.push (.compute dest comp jump)) rest
  | .label _ :: rest | .comment _ :: rest => instrsFrom labels vars instrs rest

end Assembly.Program

namespace Rom

/-- Assembles a program. -/
def assemble (program : Program) : Except AssembleError Rom :=
  match program.labels with
  | .error error => .error error
  | .ok labels =>
    if MemoryMap.romSize < program.wordCount then .error .romOverflow
    else
      match program.instrsFrom labels {} #[] with
      | .error error => .error error
      | .ok (instrs, vars) => .ok { instrs, labels, vars }

/-- Reads the remaining lines of a program text, where `read` holds, back to front, the statements
before line `number`. -/
def readLinesFrom (path : String) (number : Nat) (read : Program) :
    List String → Except AssembleError Program
  | [] => .ok read.reverse
  | line :: rest =>
    match readLine line with
    | .ok (some statement) => readLinesFrom path (number + 1) (statement :: read) rest
    | .ok none => readLinesFrom path (number + 1) read rest
    | .error cause => .error (.badLine (path ++ ":" ++ toString number) cause)

/-- The program in a text; an error names the path and the number of the line. -/
def readProgram (path text : String) : Except AssembleError Program :=
  readLinesFrom path 1 [] (Text.lines text)

/-- Reads and assembles a program text. -/
def ofText (path text : String) : Except AssembleError Rom :=
  match readProgram path text with
  | .error error => .error error
  | .ok program => assemble program

end Rom

end Hack
