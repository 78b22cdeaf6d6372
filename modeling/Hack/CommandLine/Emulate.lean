import Hack.CommandLine.Arguments
import Hack.CommandLine.Outcome
import Hack.Rom.Assemble
import Hack.Text.Quoted
import Hack.Trace
import Hack.Watch

/-!
The command line of the emulator. It assembles a program, sets the cells of a test script, runs the
machine and compares the cells that the script expects. On the way it may print a trace and the
sections of a watch list; neither touches the machine.
-/

namespace Hack.CommandLine

open Text

/-- Why a call of the emulator fails. -/
inductive EmulateError
  | cannotOpen (path : String)
  | badConfig (path : String)
  | assemble (error : AssembleError)
  deriving DecidableEq, Repr

/-- The wording of an error. -/
def EmulateError.message : EmulateError → String
  | .cannotOpen path => "Failed to open file: " ++ path
  | .badConfig path => "Failed to parse config: " ++ path
  | .assemble error => error.message

/-- What the emulator is asked to do. -/
structure EmulateRequest where
  /-- The program. -/
  program : String
  /-- The greatest number of steps; it goes before that of the script. -/
  limit : Option Nat
  /-- The test script. -/
  script : Option String
  /-- The watch list. -/
  watch : Option String
  /-- Whether to print a trace. -/
  trace : Bool
  deriving DecidableEq, Repr

namespace EmulateRequest

/-- The options of the emulator. -/
def rules : List OptionRule :=
  [⟨"tmax", some 't', true⟩, ⟨"script", some 's', true⟩, ⟨"dump-cfg", some 'd', true⟩,
   ⟨"trace", none, false⟩]

/-- The program if none is given. -/
def defaultProgram : String := "Main.asm"

/-- The number of steps in the value of an option: digits behind an optional plus. -/
def limit? (s : String) : Option Nat :=
  match s.toList with
  | '+' :: digits => readDecimal? maxSteps digits
  | digits => readDecimal? maxSteps digits

/-- The request that the arguments of a call make. -/
def ofArguments? (arguments : List String) : Option EmulateRequest := do
  let found ← Arguments.read? rules (some 1) arguments
  let limit ← (found.value? "tmax").mapM limit?
  pure
    { program := found.positionals.head?.getD defaultProgram
      limit
      script := found.value? "script"
      watch := found.value? "dump-cfg"
      trace := found.has "trace" }

end EmulateRequest

/-- The lines that announce a request. -/
def banner (request : EmulateRequest) : List String :=
  let rule := "+-----------------------------------------------+"
  ["Hack Emulator by kanade-k-1228", rule,
   "| Emulate: " ++ padRight 36 request.program ++ " |"] ++
  (request.script.map fun path => "|  - Script: " ++ padRight 34 path ++ " |").toList ++
  (request.watch.map fun path => "|  - Dump: " ++ padRight 36 path ++ " |").toList ++
  [rule]

/-! ## Reading -/

/-- Reads and assembles a program. -/
def loadProgram (disk : Disk) (path : String) : Except EmulateError Rom :=
  match disk.read path with
  | .error _ => .error (.cannotOpen path)
  | .ok content =>
    match String.fromUTF8? content with
    | none => .error (.cannotOpen path)
    | some text =>
      match Rom.ofText path text with
      | .ok rom => .ok rom
      | .error error => .error (.assemble error)

/-- Reads a configuration file. A directory can be opened, but there is nothing to parse in it. -/
def loadConfig {α : Type} (parse : String → Option α) (disk : Disk) (path : String) :
    Except EmulateError α :=
  match disk.read path with
  | .error .isDirectory => .error (.badConfig path)
  | .error _ => .error (.cannotOpen path)
  | .ok content =>
    match (String.fromUTF8? content).bind parse with
    | some config => .ok config
    | none => .error (.badConfig path)

/-- Reads a configuration file if one is asked for. -/
def loadConfig? {α : Type} (parse : String → Option α) (disk : Disk) (path : Option String) :
    Except EmulateError (Option α) :=
  match path with
  | none => .ok none
  | some path => (loadConfig parse disk path).map some

/-! ## Running -/

/-- What is printed while the machine runs. -/
structure Observers where
  trace : Bool := false
  watched : WatchList := {}

/-- The lines printed for the instruction at an address, which was executed after `time` others and
left the machine `m`. -/
def Observers.lines (observers : Observers) (time address : Nat) (instr : Instr) (m : Machine) :
    List String :=
  (if observers.trace then [traceLine time address instr m] else []) ++
    observers.watched.lines address m

/-- Runs the machine for at most `limit` steps after `time` earlier ones, and collects what is
printed on the way; the answer is the number of steps, the machine after them and the lines. -/
def observe (observers : Observers) (time : Nat) (m : Machine) (printed : Array String) :
    Nat → Nat × Machine × Array String
  | 0 => (time, m, printed)
  | limit + 1 =>
    match m.current? with
    | none => (time, m, printed)
    | some instr =>
      let address := m.pc
      let m := m.execute instr
      let lines := observers.lines time address instr m
      observe observers (time + 1) m (lines.foldl Array.push printed) limit

/-- The line about a cell that does not hold what the script expects. -/
def mismatchLine (cell : Mismatch) : String :=
  (Styled.raw " " ++ Styled.strong .red "✗" ++
    Styled.raw (" RAM[" ++ toString cell.address.toNat ++ "] expected ") ++
    Styled.coloured .green (Word.text cell.expected) ++ Styled.raw " but was " ++
    Styled.coloured .red (Word.text cell.actual)).render

/-- The line that says that all of so many cells hold what the script expects. -/
def matchLine (cells : Nat) : String :=
  (Styled.raw " " ++ Styled.strong .green "✓" ++
    Styled.raw (" " ++ toString cells ++ " cells match")).render

/-- The lines printed after a run. -/
def verdict (script : Script) (steps : Nat) (m : Machine) : List String :=
  let mismatches := script.check m
  let stop := if m.stopped then "[EXIT] halted after " else "[EXIT] step limit reached after "
  (stop ++ toString steps ++ " steps") ::
  mismatches.map mismatchLine ++
  (if !script.expect.isEmpty && mismatches.isEmpty then [matchLine script.expect.size] else []) ++
  ["================================================="]

/-- Carries out a request. -/
def EmulateRequest.run (request : EmulateRequest) (disk : Disk) : Outcome :=
  let failed (lines : List String) (error : EmulateError) : Outcome :=
    ⟨1, lines ++ [errorLine error.message], disk⟩
  let head := banner request
  match loadProgram disk request.program with
  | .error error => failed head error
  | .ok rom =>
    match loadConfig? Script.ofText? disk request.script with
    | .error error => failed head error
    | .ok script =>
      let script := script.getD {}
      let head := head ++ ["[INIT]"]
      match loadConfig? WatchList.ofText? disk request.watch with
      | .error error => failed head error
      | .ok watched =>
        let observers : Observers := { trace := request.trace, watched := watched.getD {} }
        let tracing := if request.trace then [" * Trace"] else []
        let watching := match request.watch with
          | some path => [" * Dump[" ++ toString observers.watched.size ++ "] " ++ quote path]
          | none => []
        let limit := (request.limit.or script.limit).getD maxSteps
        let (steps, m, printed) :=
          observe observers 0 (script.apply (Machine.start rom)) #[] limit
        let exitCode := if (script.check m).isEmpty then 0 else 1
        ⟨exitCode, head ++ tracing ++ watching ++ printed.toList ++ verdict script steps m, disk⟩

/-- A call of the emulator. -/
def emulate (arguments : List String) (disk : Disk) : Outcome :=
  match EmulateRequest.ofArguments? arguments with
  | none => Outcome.usage disk
  | some request => request.run disk

end Hack.CommandLine
