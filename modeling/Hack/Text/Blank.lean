/-!
Blank characters: the characters with the Unicode property `White_Space`, the ways in which blanks
part a text into words, and the removal of blanks around a text or everywhere in it.
-/

namespace Hack.Text

/-- Whether a character has the Unicode property `White_Space`. -/
def isBlank (c : Char) : Bool :=
  let n := c.toNat
  (0x09 ≤ n && n ≤ 0x0D) || n == 0x20 || n == 0x85 || n == 0xA0 || n == 0x1680 ||
    (0x2000 ≤ n && n ≤ 0x200A) || n == 0x2028 || n == 0x2029 || n == 0x202F || n == 0x205F ||
    n == 0x3000

/-- A text without any of its blanks. -/
def squeeze (s : List Char) : List Char := s.filter (! isBlank ·)

/-- A text without the blanks at its two ends. -/
def trim (s : List Char) : List Char :=
  ((s.dropWhile isBlank).reverse.dropWhile isBlank).reverse

/-- The maximal runs of characters that are not blank, in order; `word` holds, back to front, the
characters read of a run that is still open. -/
def wordsFrom (word : List Char) : List Char → List (List Char)
  | [] => if word.isEmpty then [] else [word.reverse]
  | c :: rest =>
    if isBlank c then
      if word.isEmpty then wordsFrom [] rest else word.reverse :: wordsFrom [] rest
    else wordsFrom (c :: word) rest

/-- The words of a text: its maximal runs of characters that are not blank. -/
def words (s : List Char) : List (List Char) := wordsFrom [] s

end Hack.Text
