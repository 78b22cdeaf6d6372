/-!
Characters and positions of YAML texts. A text is prepared by making every line end a line feed and
is refused if it holds a character that YAML does not allow. The line and paragraph separators of
Unicode end lines too, but stay what they are.
-/

namespace Hack.Yaml

/-- Whether a character may occur in a YAML text. -/
def isAllowed (c : Char) : Bool :=
  let n := c.toNat
  n == 0x09 || n == 0x0A || n == 0x0D || (0x20 ≤ n && n ≤ 0x7E) || n == 0x85 ||
    (0xA0 ≤ n && n ≤ 0xD7FF) || (0xE000 ≤ n && n ≤ 0xFFFD) || 0x10000 ≤ n

/-- A text in which every line end is a line feed. -/
def unifyLineEnds : List Char → List Char
  | '\r' :: '\n' :: rest => '\n' :: unifyLineEnds rest
  | '\r' :: rest => '\n' :: unifyLineEnds rest
  | '\u0085' :: rest => '\n' :: unifyLineEnds rest
  | c :: rest => c :: unifyLineEnds rest
  | [] => []

/-- Whether a character ends a line, once line ends are unified. -/
def isBreak (c : Char) : Bool := c == '\n' || c == '\u2028' || c == '\u2029'

/-- Whether a character is a space or a tab. -/
def isSpace (c : Char) : Bool := c == ' ' || c == '\t'

/-- Whether a text ends here, or goes on with a space, a tab or a line end. -/
def startsBlank : List Char → Bool
  | [] => true
  | c :: _ => isSpace c || isBreak c

/-- Whether a text starts with one of the marks between documents, `---` and `...`. -/
def startsDocumentMark : List Char → Bool
  | '-' :: '-' :: '-' :: rest => startsBlank rest
  | '.' :: '.' :: '.' :: rest => startsBlank rest
  | _ => false

/-- A place in a text. -/
structure Position where
  /-- The number of lines before it. -/
  line : Nat := 0
  /-- The number of characters before it in its line. -/
  column : Nat := 0
  /-- The number of bytes that these characters take in UTF-8. -/
  offset : Nat := 0
  deriving DecidableEq, Repr

namespace Position

/-- The place behind a character of the same line. -/
def past (p : Position) (c : Char) : Position :=
  { p with column := p.column + 1, offset := p.offset + c.utf8Size }

/-- The place behind `n` characters of one byte in the same line. -/
def skip (p : Position) (n : Nat := 1) : Position :=
  { p with column := p.column + n, offset := p.offset + n }

/-- The place behind a text of the same line. -/
def through (p : Position) (s : List Char) : Position := s.foldl past p

/-- The place behind a line end. -/
def newLine (p : Position) : Position := { line := p.line + 1 }

end Position

end Hack.Yaml
