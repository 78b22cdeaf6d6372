import Hack.Path
import Hack.Table

/-!
A tree of files without links. Files and directories stand at places, which are lists of names from
the root on. Relative paths start in the working directory, whose name is empty, so that no path can
spell it.

A path is followed piece by piece, and every piece but a last name must be met in a directory; so a
path that ends in a slash, or goes on behind a regular file, never names a file. A path that is too
long as a whole is not followed at all.
-/

namespace Hack

namespace Disk

/-- A place in the tree: the names from the root on. -/
abbrev Place := List String

instance : LawfulBEq Place := inferInstance

/-- What is at a place. -/
inductive Entry
  | directory
  | file (content : ByteArray)

instance : DecidableEq Entry
  | .directory, .directory => .isTrue rfl
  | .file content, .file other =>
    if same : content.data = other.data then .isTrue (congrArg Entry.file (ByteArray.ext same))
    else .isFalse fun equal => same (congrArg ByteArray.data (Entry.file.inj equal))
  | .directory, .file _ => .isFalse nofun
  | .file _, .directory => .isFalse nofun

/-- Why a file cannot be read or written. -/
inductive Fault
  | notFound
  | notDirectory
  | isDirectory
  | nameTooLong
  deriving DecidableEq, Repr

/-- The place where relative paths start. -/
def workingPlace : Place := [""]

/-- The most bytes that a name may have. -/
def maxNameBytes : Nat := 255

/-- The most bytes that a path may have. -/
def maxPathBytes : Nat := 4095

end Disk

open Disk

/-- A tree of files. The root and the working directory are always there. -/
structure Disk where
  entries : Table Place Entry := {}

namespace Disk

/-- What is at a place. -/
def lookup (disk : Disk) (place : Place) : Option Entry :=
  if place = [] ∨ place = workingPlace then some .directory else disk.entries.get? place

/-- One step from a place, which must be a directory; what the name leads to need not exist. -/
def step (disk : Disk) (place : Place) (name : String) : Except Fault Place :=
  match disk.lookup place with
  | none => .error .notFound
  | some (.file _) => .error .notDirectory
  | some .directory =>
    if name = "." then .ok place
    else if name = ".." then .ok place.dropLast
    else if maxNameBytes < name.utf8ByteSize then .error .nameTooLong
    else .ok (place ++ [name])

/-- The steps of a path: its pieces that are not empty, and a dot for a slash at the end. -/
def steps (path : String) : List String :=
  let pieces := (Path.pieces path.toList).map String.ofList
  let names := pieces.filter (! String.isEmpty ·)
  if pieces.getLast? = some "" then names ++ ["."] else names

/-- The place that a path names, whether or not there is something. -/
def resolve (disk : Disk) (path : String) : Except Fault Place :=
  if path.isEmpty then .error .notFound
  else if maxPathBytes < path.utf8ByteSize then .error .nameTooLong
  else
    let start := if path.toList.head? = some '/' then [] else workingPlace
    (steps path).foldlM disk.step start

/-- What is at a path. -/
def find (disk : Disk) (path : String) : Except Fault Entry :=
  match disk.resolve path with
  | .error fault => .error fault
  | .ok place =>
    match disk.lookup place with
    | some entry => .ok entry
    | none => .error .notFound

/-- Whether a path names a directory. -/
def isDirectory (disk : Disk) (path : String) : Bool :=
  match disk.find path with
  | .ok .directory => true
  | _ => false

/-- The content of the file at a path. -/
def read (disk : Disk) (path : String) : Except Fault ByteArray :=
  match disk.find path with
  | .error fault => .error fault
  | .ok .directory => .error .isDirectory
  | .ok (.file content) => .ok content

/-- The names in the directory at a place, in no particular order. -/
def names (disk : Disk) (place : Place) : List String :=
  disk.entries.keys.toList.filterMap fun key =>
    if key ≠ [] ∧ key ≠ workingPlace ∧ key.dropLast = place then key.getLast? else none

/-- The names in the directory at a path. -/
def list (disk : Disk) (path : String) : List String :=
  match disk.resolve path with
  | .ok place => disk.names place
  | .error _ => []

/-- The tree after a file was written: the path must lead there, and no directory may be in its
place. -/
def write (disk : Disk) (path : String) (content : ByteArray) : Except Fault Disk :=
  match disk.resolve path with
  | .error fault => .error fault
  | .ok place =>
    if disk.lookup place = some .directory then .error .isDirectory
    else .ok ⟨disk.entries.insert place (.file content)⟩

/-! ## Building and reading whole trees -/

/-- The tree with directories at a place and all those around it, from `place` on. -/
def addDirectories (disk : Disk) (place : Place) : List String → Disk
  | [] => disk
  | name :: rest =>
    let place := place ++ [name]
    let disk := if (disk.lookup place).isSome then disk
      else ⟨disk.entries.insert place .directory⟩
    disk.addDirectories place rest

/-- The place that a path spells, whatever is there: a dot is passed over, two dots lead back. -/
def spelledPlace (path : String) : Place :=
  let start := if path.toList.head? = some '/' then [] else workingPlace
  (steps path).foldl (fun place name =>
    if name = "." then place else if name = ".." then place.dropLast else place ++ [name]) start

/-- The tree with one more file, or an empty directory, at a path; the directories on the way are
made. -/
def add (disk : Disk) (path : String) (content : Option ByteArray) : Disk :=
  let place := spelledPlace path
  match content with
  | none => disk.addDirectories [] place
  | some bytes =>
    let disk := disk.addDirectories [] place.dropLast
    ⟨disk.entries.insert place (.file bytes)⟩

/-- The tree with the given files and empty directories. -/
def ofList (files : List (String × Option ByteArray)) : Disk :=
  files.foldl (fun disk file => disk.add file.1 file.2) {}

/-- The files of the tree with their places. -/
def files (disk : Disk) : List (Place × ByteArray) :=
  disk.entries.toList.filterMap fun (place, entry) =>
    match entry with
    | .file content => some (place, content)
    | .directory => none

/-- The path of a place, from the working directory if it is below that. -/
def pathOf (place : Place) : String :=
  if place.head? = some "" then String.intercalate "/" place.tail
  else "/" ++ String.intercalate "/" place

/-- The files that are new, or have another content, in a later tree. -/
def changes (before after : Disk) : List (String × ByteArray) :=
  (after.files.filter fun (place, content) => before.lookup place ≠ some (.file content)).map
    fun (place, content) => (pathOf place, content)

end Disk

end Hack
