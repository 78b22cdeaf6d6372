import Hack.CommandLine.Arguments
import Hack.CommandLine.Outcome
import Hack.VM.Listing
import Hack.VM.Report

/-!
The command line of the compiler. It works in three phases: all sources are read, then all are
compiled, then the code of those without errors is written. A fault while reading ends the call
before anything is written; units with errors do not keep the others from being written.
-/

namespace Hack.CommandLine

open VM

/-- Why a call of the compiler fails. -/
inductive CompileError
  | noInput
  | ambiguousOutput (units : Nat)
  | cannotOpen (path : String)
  | cannotRead (path : String)
  | invalidUnitName (name : String)
  | duplicateUnit (name first second : String)
  | cannotCreate (path : String)
  | failed (units : Nat)
  deriving DecidableEq, Repr

/-- The wording of an error. -/
def CompileError.message : CompileError → String
  | .noInput => "No input files"
  | .ambiguousOutput units => "Output file given for " ++ toString units ++ " source units"
  | .cannotOpen path => "Failed to open file: " ++ path
  | .cannotRead path => "Failed to read file: " ++ path
  | .invalidUnitName name => "Invalid source unit name: `" ++ name ++ "`"
  | .duplicateUnit name first second =>
    "Source unit `" ++ name ++ "` defined twice: " ++ first ++ " and " ++ second
  | .cannotCreate path => "Failed to create file: " ++ path
  | .failed units => toString units ++ " source unit(s) failed to translate"

/-- What the compiler is asked to do. -/
structure CompileRequest where
  /-- Source files and directories. -/
  inputs : List String
  /-- Where to write the code of a single unit. -/
  output : Option String
  /-- Whether to print listings. -/
  dump : Bool
  /-- Whether to write each command above its code. -/
  annotate : Bool
  deriving DecidableEq, Repr

namespace CompileRequest

/-- The options of the compiler. -/
def rules : List OptionRule :=
  [⟨"output", some 'o', true⟩, ⟨"dump", some 'd', false⟩, ⟨"annotate", some 'a', false⟩]

/-- The source file if no input is given. -/
def defaultInput : String := "Main.vm"

/-- The request that the arguments of a call make. -/
def ofArguments? (arguments : List String) : Option CompileRequest :=
  (Arguments.read? rules none arguments).map fun found =>
    { inputs := if found.positionals.isEmpty then [defaultInput] else found.positionals
      output := found.value? "output"
      dump := found.has "dump"
      annotate := found.has "annotate" }

end CompileRequest

/-! ## Reading -/

/-- The path of a name in a directory. -/
def joinPath (directory name : String) : String :=
  if directory.toList.getLast? = some '/' then directory ++ name else directory ++ "/" ++ name

/-- The source files that an input stands for: those of a directory in the order of their paths, or
the input itself. -/
def expandInput (disk : Disk) (input : String) : List String :=
  if disk.isDirectory input then
    let paths := (disk.list input).map (joinPath input)
    (paths.filter fun path => Path.extension? path == some sourceExtension).mergeSort
      fun left right => decide (left ≤ right)
  else [input]

/-- The source files of a request. -/
def collect (disk : Disk) (request : CompileRequest) : Except CompileError (List String) :=
  match request.inputs.flatMap (expandInput disk) with
  | [] => .error .noInput
  | paths =>
    if request.output.isSome && 1 < paths.length then .error (.ambiguousOutput paths.length)
    else .ok paths

/-- Reads one source unit. -/
def loadUnit (disk : Disk) (path : String) : Except CompileError SourceUnit :=
  match disk.read path with
  | .error .notFound => .error (.cannotOpen path)
  | .error _ => .error (.cannotRead path)
  | .ok content =>
    match String.fromUTF8? content with
    | none => .error (.cannotRead path)
    | some source =>
      match SourceUnit.ofPath? path source with
      | some unit => .ok unit
      | none => .error (.invalidUnitName (SourceUnit.nameOf path))

/-- Reads the units at the given paths behind those already loaded, and refuses a second unit of one
name. -/
def loadUnits (disk : Disk) (loaded : List SourceUnit) :
    List String → Except CompileError (List SourceUnit)
  | [] => .ok loaded
  | path :: rest =>
    match loadUnit disk path with
    | .error error => .error error
    | .ok unit =>
      match loaded.find? fun other => other.name == unit.name with
      | some other => .error (.duplicateUnit unit.name other.path path)
      | none => loadUnits disk (loaded ++ [unit]) rest

/-- The paths that are announced while units are loaded: all up to the first that cannot be
loaded. -/
def announced (disk : Disk) (loaded : List SourceUnit) : List String → List String
  | [] => []
  | path :: rest =>
    path ::
      match loadUnits disk loaded [path] with
      | .ok loaded => announced disk loaded rest
      | .error _ => []

/-! ## Compiling and writing -/

/-- What is printed about a compiled unit. -/
def unitLines (request : CompileRequest) (unit : SourceUnit) : List String :=
  let compiled := unit.compile
  unit.report compiled ++ if request.dump then unit.listing compiled else []

/-- The units whose code is written. -/
def writable (units : List SourceUnit) : List SourceUnit :=
  units.filter fun unit => !unit.compile.hasError

/-- The path to which a unit's code goes. -/
def targetOf (request : CompileRequest) (unit : SourceUnit) : String :=
  request.output.getD unit.outputPath

/-- Writes the code of units in order, until a file cannot be created; answers the paths
announced, the files and the error. -/
def writeUnits (request : CompileRequest) (disk : Disk) :
    List SourceUnit → List String × Disk × Option CompileError
  | [] => ([], disk, none)
  | unit :: rest =>
    let path := targetOf request unit
    match disk.write path (unit.compile.render request.annotate).toUTF8 with
    | .error _ => ([path], disk, some (.cannotCreate path))
    | .ok disk =>
      let (paths, disk, error) := writeUnits request disk rest
      (path :: paths, disk, error)

/-- The outcome of a call that ends with an error, or well. -/
def finish (lines : List String) (disk : Disk) : Option CompileError → Outcome
  | none => ⟨0, lines, disk⟩
  | some error => ⟨1, lines ++ [errorLine error.message], disk⟩

/-- Carries out a request. -/
def CompileRequest.run (request : CompileRequest) (disk : Disk) : Outcome :=
  let reading := ["Hack VM Translator", "1. Read Files and Parse Lines"]
  match collect disk request with
  | .error error => finish reading disk (some error)
  | .ok paths =>
    let reading := reading ++ (announced disk [] paths).map ("  < " ++ ·)
    match loadUnits disk [] paths with
    | .error error => finish reading disk (some error)
    | .ok units =>
      let compiling := "2. Translate" :: units.flatMap (unitLines request)
      let good := writable units
      let (written, disk, fault) := writeUnits request disk good
      let writing := "3. Write Files" :: written.map ("  > " ++ ·)
      let bad := units.length - good.length
      let error := fault.or (if 0 < bad then some (.failed bad) else none)
      finish (reading ++ compiling ++ writing) disk error

/-- A call of the compiler. -/
def compile (arguments : List String) (disk : Disk) : Outcome :=
  match CompileRequest.ofArguments? arguments with
  | none => Outcome.usage disk
  | some request => request.run disk

end Hack.CommandLine
