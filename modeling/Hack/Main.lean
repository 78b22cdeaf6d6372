import Hack.CommandLine.Emulate
import Hack.CommandLine.Compile

/-!
The program. Its first argument chooses the compiler or the emulator, the others are passed on.
The files that the call may touch are read before it, the files that it changed are written after
it, and everything between is done by the command lines themselves.
-/

namespace Hack.Program

/-- Adds the file at a path to a tree, or the directory before it if there is no such file. -/
def addFile (disk : Disk) (path : String) : IO Disk := do
  try
    pure (disk.add path (some (← IO.FS.readBinFile path)))
  catch _ => pure disk

/-- Adds what is at a path to a tree: a file, or a directory with its files. -/
def addPath (disk : Disk) (path : String) : IO Disk := do
  try
    let real ← IO.FS.realPath path
    if ← real.isDir then
      (← real.readDir).foldlM (fun disk entry =>
        addFile disk (CommandLine.joinPath path entry.fileName)) (disk.add path none)
    else addFile disk path
  catch _ => pure disk

/-- Adds the directory in which a file is to be written. -/
def addParent (disk : Disk) (path : String) : IO Disk := do
  let parent := String.ofList (Path.join (Path.pieces path.toList).dropLast)
  let parent := if parent.isEmpty then "." else parent
  try
    if ← (← IO.FS.realPath parent).isDir then pure (disk.add parent none) else pure disk
  catch _ => pure disk

/-- Prints what a call printed and writes the files that it changed. -/
def finish (before : Disk) (outcome : CommandLine.Outcome) : IO UInt32 := do
  for (path, content) in Disk.changes before outcome.disk do
    IO.FS.writeBinFile path content
  IO.print outcome.output
  pure (UInt32.ofNat outcome.exitCode)

/-- A call of the compiler. -/
def compile (arguments : List String) : IO UInt32 := do
  match CommandLine.CompileRequest.ofArguments? arguments with
  | none => finish {} (CommandLine.Outcome.usage {})
  | some request =>
    let disk ← request.inputs.foldlM addPath {}
    let disk ← request.output.toList.foldlM addParent disk
    finish disk (request.run disk)

/-- A call of the emulator. -/
def emulate (arguments : List String) : IO UInt32 := do
  match CommandLine.EmulateRequest.ofArguments? arguments with
  | none => finish {} (CommandLine.Outcome.usage {})
  | some request =>
    let paths := request.program :: request.script.toList ++ request.watch.toList
    let disk ← paths.foldlM addPath {}
    finish disk (request.run disk)

end Hack.Program

def main (arguments : List String) : IO UInt32 :=
  match arguments with
  | "compile" :: rest => Hack.Program.compile rest
  | "emulate" :: rest => Hack.Program.emulate rest
  | _ => do
    IO.eprintln "usage: hack compile ARGUMENTS | hack emulate ARGUMENTS"
    pure 2
