/-!
File paths as texts. A path is a row of pieces parted by slashes. Empty pieces and single dots do
not count, but stay where they are; the last piece that counts is the file name, unless it is `..`.

The extension of a file name is what stands behind its last dot, the stem what stands before it. A
name whose only dot is its first character is all stem.
-/

namespace Hack.Path

/-- The pieces of a path, where `piece` holds, back to front, what was read of the first. -/
def piecesFrom (piece : List Char) : List Char → List (List Char)
  | [] => [piece.reverse]
  | c :: rest =>
    if c = '/' then piece.reverse :: piecesFrom [] rest else piecesFrom (c :: piece) rest

/-- The pieces of a path, empty ones included. -/
def pieces (path : List Char) : List (List Char) := piecesFrom [] path

/-- The path with the given pieces. -/
def join : List (List Char) → List Char
  | [] => []
  | [piece] => piece
  | piece :: rest => piece ++ '/' :: join rest

/-- Whether a piece does not count: it is empty or a single dot. -/
def isIdle (piece : List Char) : Bool := piece.isEmpty || piece == ['.']

/-- The file name of a path with the pieces before it, the nearest first; nothing if the path names
no file. -/
def splitLast? (path : List Char) : Option (List Char × List (List Char)) :=
  match (pieces path).reverse.dropWhile isIdle with
  | [] => none
  | name :: before => if name = ['.', '.'] then none else some (name, before)

/-- The stem and, if there is one, the extension of a file name. -/
def splitName (name : List Char) : List Char × Option (List Char) :=
  let back := name.reverse
  match back.dropWhile (· != '.') with
  | '.' :: c :: stem => ((c :: stem).reverse, some (back.takeWhile (· != '.')).reverse)
  | _ => (name, none)

/-- The stem of the file that a path names. -/
def stem? (path : String) : Option String :=
  (splitLast? path.toList).map fun (name, _) => String.ofList (splitName name).1

/-- The extension of the file that a path names. -/
def extension? (path : String) : Option String :=
  (splitLast? path.toList).bind fun (name, _) => (splitName name).2.map String.ofList

/-- A path whose file name ends behind its stem in the given extension. A path that names no file is
left as it is. -/
def setExtension (path extension : List Char) : List Char :=
  match splitLast? path with
  | none => path
  | some (name, before) => join (before.reverse ++ [(splitName name).1 ++ '.' :: extension])

/-- A path with another extension. First the old extension is taken from the end of the text, then
the file name gets the new one; so the name whose stem is a single dot becomes `..`, which names no
file, and stays so. -/
def withExtension (path extension : String) : String :=
  let old := ((extension? path).getD "").length
  String.ofList (setExtension (path.toList.take (path.length - old)) extension.toList)

/-- Every path has a piece, if only an empty one. -/
theorem piecesFrom_ne_nil (piece path : List Char) : piecesFrom piece path ≠ [] := by
  induction path generalizing piece with
  | nil => simp [piecesFrom]
  | cons c rest ih => simp only [piecesFrom]; split <;> simp [ih]

theorem join_piecesFrom (piece path : List Char) :
    join (piecesFrom piece path) = piece.reverse ++ path := by
  induction path generalizing piece with
  | nil => simp [piecesFrom, join]
  | cons c rest ih =>
    by_cases slash : c = '/'
    · subst slash
      simp only [piecesFrom, if_true]
      cases tail : piecesFrom [] rest with
      | nil => exact absurd tail (piecesFrom_ne_nil [] rest)
      | cons next others =>
        rw [join, ← tail, ih]
        · rfl
        · simp
    · simp [piecesFrom, slash, ih]

/-- Nothing of a path is lost in its pieces. -/
theorem join_pieces (path : List Char) : join (pieces path) = path := by
  rw [pieces, join_piecesFrom]
  rfl

end Hack.Path
