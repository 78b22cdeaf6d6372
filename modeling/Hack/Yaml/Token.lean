import Hack.Yaml.Scalar

/-!
The tokens of a YAML text, and the state in which they are told apart.

A mapping key needs no sign of its own: only the colon behind a node tells that it was a key. So the
lexer remembers where a key may have started, on each level of flow brackets, and enters the token
for it afterwards. Such a key ends on its line and within 1024 bytes of UTF-8. Outside flow brackets
the columns of the block collections stand on a stack, and a token to the left of the innermost
column closes its collection.
-/

namespace Hack.Yaml

inductive Token
  | streamEnd
  /-- The `%YAML` directive with its version. -/
  | version (major minor : Nat)
  /-- The `%TAG` directive with the handle that it defines and the text that this abbreviates. -/
  | tagHandle (handle start : String)
  | documentStart
  | documentEnd
  | blockSequenceStart
  | blockMappingStart
  | blockEnd
  | flowSequenceStart
  | flowSequenceEnd
  | flowMappingStart
  | flowMappingEnd
  | blockEntry
  | flowEntry
  | key
  | value
  | alias (name : String)
  | anchor (name : String)
  /-- A tag: the handle, empty for a tag written in full, and what follows it. -/
  | tag (handle suffix : String)
  | scalar (form : ScalarForm) (text : String)
  deriving DecidableEq, Repr

/-- A place where a key may have started. -/
structure PossibleKey where
  /-- Whether only a key can stand there. -/
  required : Bool
  /-- The number of tokens before it. -/
  token : Nat
  position : Position

/-- Whether a possible key is too long ago at a place. -/
def PossibleKey.isStale (key : PossibleKey) (p : Position) : Bool :=
  key.position.line < p.line || key.position.offset + 1024 < p.offset

/-- The state of the lexer between two tokens. -/
structure Lexer where
  rest : List Char
  position : Position := {}
  tokens : Array Token := #[]
  /-- The column of the innermost block collection, -1 outside of all. -/
  indent : Int := -1
  /-- The columns of the collections around it. -/
  outer : List Int := []
  /-- Whether a key without sign may start at the next token. -/
  keyAllowed : Bool := true
  /-- The possible key of the innermost level. -/
  possible : Option PossibleKey := none
  /-- The possible keys of the levels around it, one for each open flow bracket. -/
  levels : List (Option PossibleKey) := []

namespace Lexer

/-- Whether the lexer is between flow brackets. -/
def inFlow (l : Lexer) : Bool := !l.levels.isEmpty

def push (l : Lexer) (t : Token) : Lexer := { l with tokens := l.tokens.push t }

/-- The lexer behind `n` characters of one byte, none of which ends a line. -/
def skip (l : Lexer) (n : Nat := 1) : Lexer :=
  { l with rest := l.rest.drop n, position := l.position.skip n }

/-- The place and the characters behind a gap between tokens, and whether a key may start there:
blanks, comments and line ends are skipped, but no tab that stands where a block key may start. -/
def gapFrom (inFlow inComment allowed : Bool) (p : Position) :
    List Char → Bool × Position × List Char
  | [] => (allowed, p, [])
  | c :: rest =>
    if isBreak c then gapFrom inFlow false (allowed || !inFlow) p.newLine rest
    else if inComment then gapFrom inFlow true allowed (p.past c) rest
    else if c == '\ufeff' && p.column == 0 then gapFrom inFlow false allowed (p.past c) rest
    else if c == ' ' || (c == '\t' && (inFlow || !allowed)) then
      gapFrom inFlow false allowed (p.past c) rest
    else if c == '#' then gapFrom inFlow true allowed (p.past c) rest
    else (allowed, p, c :: rest)

/-- Skips the gap before the next token. -/
def skipGap (l : Lexer) : Lexer :=
  let (allowed, position, rest) := gapFrom l.inFlow false l.keyAllowed l.position l.rest
  { l with keyAllowed := allowed, position, rest }

/-- Gives up the possible key of the innermost level; a required key must not be lost. -/
def dropPossible (l : Lexer) : Option Lexer :=
  match l.possible with
  | some key => if key.required then none else some { l with possible := none }
  | none => some l

/-- Gives up the possible key of the innermost level if it is too long ago. A key that is stays so,
and brackets must be closed before the document ends, so those of the levels around may wait. -/
def dropStale (l : Lexer) : Option Lexer :=
  if l.possible.any (·.isStale l.position) then l.dropPossible else some l

/-- Notes that a key may start here. -/
def notePossible (l : Lexer) : Option Lexer :=
  if l.keyAllowed then do
    let required := !l.inFlow && l.indent == l.position.column
    let l ← l.dropPossible
    pure { l with possible := some ⟨required, l.tokens.size, l.position⟩ }
  else some l

/-- Closes the block collections that start to the right of a column, given the columns around
them. -/
def closeFrom (column : Int) (tokens : Array Token) (indent : Int) :
    List Int → Array Token × Int × List Int
  | [] =>
    if column < indent then (tokens.push .blockEnd, -1, []) else (tokens, indent, [])
  | parent :: rest =>
    if column < indent then closeFrom column (tokens.push .blockEnd) parent rest
    else (tokens, indent, parent :: rest)

/-- Closes the block collections that start to the right of a column; flow brackets shield them. -/
def closeTo (l : Lexer) (column : Int) : Lexer :=
  if l.inFlow then l
  else
    let (tokens, indent, outer) := closeFrom column l.tokens l.indent l.outer
    { l with tokens, indent, outer }

/-- Opens a block collection at a column, before the token with the given number, unless the
innermost one has that column already. -/
def openAt (l : Lexer) (column : Nat) (token : Nat) (start : Token) : Lexer :=
  if l.inFlow || (column : Int) ≤ l.indent then l
  else
    { l with
      tokens := l.tokens.insertIdxIfInBounds token start
      outer := l.indent :: l.outer
      indent := column }

/-- The end of the text closes every block collection. -/
def finish (l : Lexer) : Option (Array Token) := do
  let l ← (l.closeTo (-1)).dropPossible
  pure (l.tokens.push .streamEnd)

/-! ## Tokens of one or a few signs -/

/-- A mark between documents. -/
def documentMark (l : Lexer) (t : Token) : Option Lexer := do
  let l ← (l.closeTo (-1)).dropPossible
  pure ({ l with keyAllowed := false }.push t |>.skip 3)

/-- An opening flow bracket. -/
def openFlow (l : Lexer) (t : Token) : Option Lexer := do
  let l ← l.notePossible
  pure ({ l with possible := none, levels := l.possible :: l.levels, keyAllowed := true }.push t
    |>.skip)

/-- A closing flow bracket. -/
def closeFlow (l : Lexer) (t : Token) : Option Lexer := do
  let l ← l.dropPossible
  let l := match l.levels with
    | possible :: levels => { l with possible, levels }
    | [] => l
  pure ({ l with keyAllowed := false }.push t |>.skip)

/-- A comma between flow brackets. -/
def flowEntry (l : Lexer) : Option Lexer := do
  let l ← l.dropPossible
  pure ({ l with keyAllowed := true }.push .flowEntry |>.skip)

/-- The dash of a block sequence. -/
def blockEntry (l : Lexer) : Option Lexer := do
  if !l.inFlow && !l.keyAllowed then none
  let l := l.openAt l.position.column l.tokens.size .blockSequenceStart
  let l ← l.dropPossible
  pure ({ l with keyAllowed := true }.push .blockEntry |>.skip)

/-- The question mark before a key. -/
def explicitKey (l : Lexer) : Option Lexer := do
  if !l.inFlow && !l.keyAllowed then none
  let l := l.openAt l.position.column l.tokens.size .blockMappingStart
  let l ← l.dropPossible
  pure ({ l with keyAllowed := !l.inFlow }.push .key |>.skip)

/-- The colon before a value: the possible key of this level was one, or a question mark stood
before it. -/
def value (l : Lexer) : Option Lexer :=
  match l.possible with
  | some key =>
    let l := { l with tokens := l.tokens.insertIdxIfInBounds key.token .key }
    let l := l.openAt key.position.column key.token .blockMappingStart
    some ({ l with possible := none, keyAllowed := false }.push .value |>.skip)
  | none => do
    if !l.inFlow && !l.keyAllowed then none
    let l := l.openAt l.position.column l.tokens.size .blockMappingStart
    pure ({ l with keyAllowed := !l.inFlow }.push .value |>.skip)

/-! ## Scalars -/

/-- The lexer behind a scalar. -/
def afterScalar (l : Lexer) (form : ScalarForm) (found : Scanned) : Lexer :=
  { l with rest := found.rest, position := found.position }.push (.scalar form found.text)

/-- A scalar in quotes. -/
def quotedScalar (l : Lexer) (single : Bool) : Option Lexer := do
  let l ← l.notePossible
  let found ← quoted single l.position.skip (l.rest.drop 1)
  pure ({ l with keyAllowed := false }.afterScalar .quoted found)

/-- A plain scalar; a line end behind it allows a key to start. -/
def plainScalar (l : Lexer) : Option Lexer := do
  let l ← l.notePossible
  let (found, multiline) ← plain ⟨l.inFlow, l.indent + 1⟩ l.position l.rest
  pure ({ l with keyAllowed := multiline }.afterScalar .plain found)

/-- A literal or folded block scalar. -/
def blockScalar (l : Lexer) (form : ScalarForm) : Option Lexer := do
  let l ← l.dropPossible
  let found ← block (form == .literal) l.indent l.position.skip (l.rest.drop 1)
  pure ({ l with keyAllowed := true }.afterScalar form found)

/-! ## Anchors, tags and directives -/

/-- The characters of names. -/
def isNameChar (c : Char) : Bool := c.isAlphanum || c == '-' || c == '_'

/-- Whether a name may end before the rest of a text. -/
def endsName (rest : List Char) : Bool :=
  startsBlank rest ||
    match rest with
    | c :: _ => "?:,]\x7d%@\x60".toList.contains c
    | [] => true

/-- An anchor or an alias. -/
def named (l : Lexer) (token : String → Token) : Option Lexer := do
  let l ← l.notePossible
  let name := (l.rest.drop 1).takeWhile isNameChar
  if name.isEmpty || !endsName (l.rest.drop (name.length + 1)) then none
  pure ({ l with keyAllowed := false }.push (token (String.ofList name)) |>.skip (name.length + 1))

/-- The characters of tags; some may stand only in a tag that is written in full. -/
def isTagChar (full : Bool) (c : Char) : Bool :=
  isNameChar c || ";/?:@&=+$.%!~*'()".toList.contains c ||
    (full && (c == ',' || c == '[' || c == ']'))

/-- The number of octets that encode a character in UTF-8, told from the first of them. -/
def octetCount? (first : Nat) : Option Nat :=
  if first < 0x80 then some 1
  else if first / 0x20 == 0x06 then some 2
  else if first / 0x10 == 0x0E then some 3
  else if first / 0x08 == 0x1E then some 4
  else none

/-- The octets of a text of tag characters. A percent sign and two hexadecimal digits stand for an
octet, and `pending` more are needed for the character that was begun so; they must follow at
once. -/
def octetsFrom (pending : Nat) (s : List Char) : Option (List Char) :=
  match s with
  | [] => if pending == 0 then some [] else none
  | '%' :: a :: b :: rest => do
    let octet ← hexText? [a, b]
    if pending == 0 then
      pure (Char.ofNat octet :: (← octetsFrom ((← octetCount? octet) - 1) rest))
    else if octet / 0x40 == 0x02 then
      pure (Char.ofNat octet :: (← octetsFrom (pending - 1) rest))
    else none
  | '%' :: _ => none
  | c :: rest => if pending == 0 then (octetsFrom 0 rest).map (c :: ·) else none

/-- What a text of tag characters spells: one character for each octet, up to the first that is
zero. -/
def tagText? (s : List Char) : Option String :=
  (octetsFrom 0 s).map fun octets => String.ofList (octets.takeWhile (· != '\x00'))

/-- The handle and the suffix of a tag, and how many characters it takes. A suffix that is not
written in full and spells nothing is the exclamation mark itself. -/
def readTag (s : List Char) : Option (String × String × Nat) :=
  match s with
  | '!' :: '<' :: rest => do
    let uri := rest.takeWhile (isTagChar true)
    if uri.isEmpty || (rest.drop uri.length).head? != some '>' then none
    pure ("", ← tagText? uri, uri.length + 3)
  | '!' :: rest =>
    let name := rest.takeWhile isNameChar
    match rest.drop name.length with
    | '!' :: tail => do
      let uri := tail.takeWhile (isTagChar false)
      if uri.isEmpty then none
      pure ("!" ++ String.ofList name ++ "!", ← tagText? uri, name.length + uri.length + 2)
    | _ => do
      let uri := rest.takeWhile (isTagChar false)
      let suffix ← tagText? uri
      let (handle, suffix) := if suffix.isEmpty then ("", "!") else ("!", suffix)
      pure (handle, suffix, uri.length + 1)
  | _ => none

/-- A tag. -/
def tag (l : Lexer) : Option Lexer := do
  let l ← l.notePossible
  let (handle, suffix, length) ← readTag l.rest
  let after := l.rest.drop length
  if !startsBlank after && !(l.inFlow && after.head? == some ',') then none
  pure ({ l with keyAllowed := false }.push (.tag handle suffix) |>.skip length)

/-- A number of at most nine digits, and what follows it. -/
def versionNumber? (s : List Char) : Option (Nat × List Char) :=
  let digits := s.takeWhile Char.isDigit
  if digits.isEmpty || 9 < digits.length then none
  else some (Nat.ofDigitChars 10 digits 0, s.drop digits.length)

/-- The handle of a `%TAG` directive, and what follows it. -/
def directiveHandle? : List Char → Option (String × List Char)
  | '!' :: rest =>
    let name := rest.takeWhile isNameChar
    match rest.drop name.length with
    | '!' :: tail => some ("!" ++ String.ofList name ++ "!", tail)
    | tail => if name.isEmpty then some ("!", tail) else none
  | _ => none

/-- The token of a directive, and what follows it on its line. -/
def readDirective (s : List Char) : Option (Token × List Char) := do
  let name := s.takeWhile isNameChar
  let rest := s.drop name.length
  if !startsBlank rest then none
  let arguments := rest.dropWhile isSpace
  if name == "YAML".toList then
    let (major, rest) ← versionNumber? arguments
    match rest with
    | '.' :: rest =>
      let (minor, rest) ← versionNumber? rest
      pure (.version major minor, rest)
    | _ => none
  else if name == "TAG".toList then
    let (handle, rest) ← directiveHandle? arguments
    if !(rest.head?.any isSpace) then none
    let rest := rest.dropWhile isSpace
    let uri := rest.takeWhile (isTagChar true)
    if uri.isEmpty || !startsBlank (rest.drop uri.length) then none
    pure (.tagHandle handle (← tagText? uri), rest.drop uri.length)
  else none

/-- A directive, which takes up its whole line. -/
def directive (l : Lexer) : Option Lexer := do
  let l ← (l.closeTo (-1)).dropPossible
  let (token, rest) ← readDirective (l.rest.drop 1)
  let (position, rest) ← dropHeaderLine (l.position.skip (l.rest.length - rest.length)) rest
  pure ({ l with keyAllowed := false, position, rest }.push token)

/-! ## All tokens -/

/-- Whether a character may start a plain scalar, given what follows it. -/
def startsPlain (inFlow : Bool) (c : Char) (rest : List Char) : Bool :=
  !("-?:,[]\x7b\x7d#&*!|>'\"%@\x60".toList.contains c || isSpace c || isBreak c) ||
    (c == '-' && !(rest.head?.any isSpace)) ||
    (!inFlow && (c == '?' || c == ':') && !startsBlank rest)

/-- The next token, or several if collections end before it; `c` is the first character and `rest`
what follows it. -/
def nextAt (l : Lexer) (c : Char) (rest : List Char) : Option Lexer :=
  let first := l.position.column == 0
  let alone := startsBlank rest
  if first && c == '%' then l.directive
  else if first && c == '-' && startsDocumentMark (c :: rest) then l.documentMark .documentStart
  else if first && c == '.' && startsDocumentMark (c :: rest) then l.documentMark .documentEnd
  else if c == '[' then l.openFlow .flowSequenceStart
  else if c == '\x7b' then l.openFlow .flowMappingStart
  else if c == ']' then l.closeFlow .flowSequenceEnd
  else if c == '\x7d' then l.closeFlow .flowMappingEnd
  else if c == ',' then l.flowEntry
  else if c == '-' && alone then l.blockEntry
  else if c == '?' && (l.inFlow || alone) then l.explicitKey
  else if c == ':' && (l.inFlow || alone) then l.value
  else if c == '*' then l.named .alias
  else if c == '&' then l.named .anchor
  else if c == '!' then l.tag
  else if c == '|' && !l.inFlow then l.blockScalar .literal
  else if c == '>' && !l.inFlow then l.blockScalar .folded
  else if c == '\'' then l.quotedScalar true
  else if c == '"' then l.quotedScalar false
  else if startsPlain l.inFlow c rest then l.plainScalar
  else none

/-- Reads the tokens on; each takes up at least one character, so `fuel` rounds suffice for a text
of that many characters. -/
def tokensFrom (fuel : Nat) (l : Lexer) : Option (Array Token) :=
  match fuel with
  | 0 => l.finish
  | fuel + 1 => do
    let l := l.skipGap
    let l ← l.dropStale
    match l.rest with
    | [] => l.finish
    | c :: rest => tokensFrom fuel (← (l.closeTo l.position.column).nextAt c rest)

end Lexer

/-- The tokens of a text, or nothing if it cannot be told apart into tokens. -/
def tokens? (s : String) : Option (Array Token) :=
  if s.toList.all isAllowed then
    let chars := unifyLineEnds s.toList
    Lexer.tokensFrom (chars.length + 1) { rest := chars }
  else none

end Hack.Yaml
