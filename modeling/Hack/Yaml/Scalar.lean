import Hack.Yaml.Basic

/-!
The texts of YAML scalars: plain, in single or double quotes, and literal or folded blocks. Each
reader starts behind the sign that announces its form, answers the text with the place and the rest
behind it, or nothing if the text is malformed.

Inside a plain or quoted scalar a run of blanks that holds a line end is folded: the blanks around
line ends vanish, one line end counts as a space, and of several the first is dropped.
-/

namespace Hack.Yaml

/-- The form in which a scalar was written. -/
inductive ScalarForm
  | plain
  | quoted
  | literal
  | folded
  deriving DecidableEq, Repr

/-- A run of blanks inside a scalar, whose meaning depends on what follows it. All characters stand
back to front. -/
inductive Gap
  /-- Blanks within one line. -/
  | spaces (read : List Char)
  /-- Blanks with line ends: the first one, unless it was escaped, and those after it. -/
  | breaks (first : Option Char) (others : List Char)
  deriving DecidableEq, Repr

namespace Gap

/-- No blanks at all. -/
def none : Gap := .spaces []

/-- Whether the run holds a line end. -/
def isMultiline : Gap → Bool
  | .spaces _ => false
  | .breaks .. => true

/-- The run with one more space or tab, which counts only before the first line end. -/
def addSpace (c : Char) : Gap → Gap
  | .spaces read => .spaces (c :: read)
  | .breaks first others => .breaks first others

/-- The run with one more line end. -/
def addBreak (c : Char) : Gap → Gap
  | .spaces _ => .breaks (some c) []
  | .breaks first others => .breaks first (c :: others)

/-- A text, back to front, with the run before the next character joined to it. -/
def join (gap : Gap) (text : List Char) : List Char :=
  match gap with
  | .spaces read => read ++ text
  | .breaks (some '\n') [] => ' ' :: text
  | .breaks (some '\n') others => others ++ text
  | .breaks (some first) others => others ++ first :: text
  | .breaks .none others => others ++ text

end Gap

/-- What a reader found: the text, the place behind it and the characters from there on. -/
structure Scanned where
  text : String
  position : Position
  rest : List Char

/-- Where a plain scalar stands. -/
structure PlainContext where
  /-- Whether it stands between flow brackets. -/
  inFlow : Bool
  /-- The column from which on the further lines of the scalar must start. -/
  indent : Int

/-- Whether a plain scalar ends before a character that is not blank: at a colon with a blank behind
it and, between flow brackets, at a comma or a bracket. -/
def endsPlain (inFlow : Bool) (c : Char) (rest : List Char) : Bool :=
  (c == ':' && startsBlank rest) ||
    (inFlow && (c == ',' || c == '[' || c == ']' || c == '{' || c == '}'))

/-- Whether a colon stands where, between flow brackets, it can neither end a plain scalar nor
belong to it: before a sign of the flow syntax. -/
def isStrayColon (inFlow : Bool) (c : Char) (rest : List Char) : Bool :=
  inFlow && c == ':' &&
    match rest with
    | next :: _ =>
      next == ',' || next == '?' || next == '[' || next == ']' || next == '{' || next == '}'
    | [] => false

/-- Reads a plain scalar on, behind `text` and a run of blanks; tells also whether the run of blanks
behind the scalar holds a line end. -/
def plainFrom (context : PlainContext) (text : List Char) (gap : Gap) (p : Position) :
    List Char → Option (Scanned × Bool)
  | [] => some (⟨String.ofList text.reverse, p, []⟩, gap.isMultiline)
  | c :: rest =>
    if isSpace c then
      if gap.isMultiline && decide ((p.column : Int) < context.indent) && c == '\t' then none
      else plainFrom context text (gap.addSpace c) (p.past c) rest
    else if isBreak c then plainFrom context text (gap.addBreak c) p.newLine rest
    else
      let outside :=
        gap.isMultiline && !context.inFlow && decide ((p.column : Int) < context.indent)
      let marked := p.column == 0 && startsDocumentMark (c :: rest)
      let comment := c == '#' && gap != Gap.none
      if outside || marked || comment then
        some (⟨String.ofList text.reverse, p, c :: rest⟩, gap.isMultiline)
      else if isStrayColon context.inFlow c rest then none
      else if endsPlain context.inFlow c rest then
        some (⟨String.ofList text.reverse, p, c :: rest⟩, gap.isMultiline)
      else plainFrom context (c :: gap.join text) Gap.none (p.past c) rest

/-- Reads a plain scalar. -/
def plain (context : PlainContext) (p : Position) (s : List Char) : Option (Scanned × Bool) :=
  plainFrom context [] Gap.none p s

/-- Reads a scalar in single quotes on; a quote inside it is written twice. -/
def singleFrom (text : List Char) (gap : Gap) (p : Position) : List Char → Option Scanned
  | [] => none
  | c :: rest =>
    if isSpace c then singleFrom text (gap.addSpace c) (p.past c) rest
    else if isBreak c then singleFrom text (gap.addBreak c) p.newLine rest
    else if p.column == 0 && startsDocumentMark (c :: rest) then none
    else if c == '\'' then
      match rest with
      | '\'' :: rest => singleFrom ('\'' :: gap.join text) Gap.none (p.skip 2) rest
      | _ => some ⟨String.ofList (gap.join text).reverse, p.skip, rest⟩
    else singleFrom (c :: gap.join text) Gap.none (p.past c) rest

/-- What a backslash and the character behind it stand for. -/
inductive Escape
  | char (c : Char)
  /-- The character whose code follows in so many hexadecimal digits. -/
  | code (digits : Nat)

/-- The escapes of scalars in double quotes. -/
def escape? : Char → Option Escape
  | '0' => some (.char '\x00')
  | 'a' => some (.char '\x07')
  | 'b' => some (.char '\x08')
  | 't' | '\t' => some (.char '\t')
  | 'n' => some (.char '\n')
  | 'v' => some (.char '\x0b')
  | 'f' => some (.char '\x0c')
  | 'r' => some (.char '\r')
  | 'e' => some (.char '\x1b')
  | ' ' => some (.char ' ')
  | '"' => some (.char '"')
  | '/' => some (.char '/')
  | '\\' => some (.char '\\')
  | 'N' => some (.char '\u0085')
  | '_' => some (.char '\u00a0')
  | 'L' => some (.char '\u2028')
  | 'P' => some (.char '\u2029')
  | 'x' => some (.code 2)
  | 'u' => some (.code 4)
  | 'U' => some (.code 8)
  | _ => none

/-- The value of a hexadecimal digit. -/
def hexValue? (c : Char) : Option Nat :=
  if c.isDigit then some (c.toNat - 48)
  else if 'a' ≤ c && c ≤ 'f' then some (c.toNat - 87)
  else if 'A' ≤ c && c ≤ 'F' then some (c.toNat - 55)
  else none

/-- The value of a text of hexadecimal digits. -/
def hexText? (s : List Char) : Option Nat :=
  s.foldlM (fun value c => (hexValue? c).map (16 * value + ·)) 0

/-- The character whose code is written in the given digits; surrogates and codes beyond the last
one are none. -/
def codedChar? (digits : List Char) : Option Char :=
  match hexText? digits with
  | some n => if n.isValidChar then some (Char.ofNat n) else none
  | none => none

/-- Reads a scalar in double quotes on. A backslash before a line end drops it. -/
def doubleFrom (text : List Char) (gap : Gap) (p : Position) (s : List Char) : Option Scanned :=
  match s with
  | [] => none
  | c :: rest =>
    if isSpace c then doubleFrom text (gap.addSpace c) (p.past c) rest
    else if isBreak c then doubleFrom text (gap.addBreak c) p.newLine rest
    else if p.column == 0 && startsDocumentMark (c :: rest) then none
    else if c == '"' then some ⟨String.ofList (gap.join text).reverse, p.skip, rest⟩
    else if c == '\\' then
      match rest with
      | [] => none
      | e :: rest =>
        if isBreak e then doubleFrom (gap.join text) (.breaks none []) p.newLine rest
        else
          match escape? e with
          | some (.char c) => doubleFrom (c :: gap.join text) Gap.none (p.skip 2) rest
          | some (.code n) =>
            if (rest.take n).length < n then none
            else
              match codedChar? (rest.take n) with
              | some c =>
                doubleFrom (c :: gap.join text) Gap.none (p.skip (n + 2)) (rest.drop n)
              | none => none
          | none => none
    else doubleFrom (c :: gap.join text) Gap.none (p.past c) rest
termination_by s.length
decreasing_by all_goals simp only [List.length_cons, List.length_drop]; omega

/-- Reads a scalar in quotes, behind the opening one. -/
def quoted (single : Bool) (p : Position) (s : List Char) : Option Scanned :=
  if single then singleFrom [] Gap.none p s else doubleFrom [] Gap.none p s

/-! ## Block scalars -/

/-- What happens to the line ends at the end of a block scalar. -/
inductive Chomping
  | strip
  | clip
  | keep
  deriving DecidableEq, Repr

/-- The header of a block scalar: its chomping and the further indentation, if it is stated. -/
structure BlockHeader where
  chomping : Chomping := .clip
  increment : Option Nat := none

/-- The stated indentation of a digit: zero is refused. -/
def increment? (c : Char) : Option Nat := if c == '0' then none else some (c.toNat - 48)

/-- Reads the signs of a block scalar's header: a chomping sign and a digit in either order. -/
def blockHeader? : List Char → Option (BlockHeader × List Char)
  | c :: rest =>
    if c == '+' || c == '-' then
      let chomping := if c == '+' then Chomping.keep else .strip
      match rest with
      | d :: tail =>
        if d.isDigit then (increment? d).map fun n => (⟨chomping, some n⟩, tail)
        else some (⟨chomping, none⟩, rest)
      | [] => some (⟨chomping, none⟩, rest)
    else if c.isDigit then
      match increment? c, rest with
      | some n, '+' :: tail => some (⟨.keep, some n⟩, tail)
      | some n, '-' :: tail => some (⟨.strip, some n⟩, tail)
      | some n, _ => some (⟨.clip, some n⟩, rest)
      | none, _ => none
    else some ({}, c :: rest)
  | [] => some ({}, [])

/-- Drops the rest of a header line: blanks and a comment up to the line end. -/
def dropHeaderLine (p : Position) : List Char → Option (Position × List Char)
  | [] => some (p, [])
  | c :: rest =>
    if isBreak c then some (p.newLine, rest)
    else if isSpace c then dropHeaderLine (p.past c) rest
    else if c == '#' then
      let tail := rest.dropWhile (! isBreak ·)
      match tail with
      | [] => some (p.through (c :: rest), [])
      | _ :: after => some (p.newLine, after)
    else none

/-- Skips the indentation of the next line that is not empty, and the empty lines before it. The
line ends are collected back to front; `indent` is zero while it is still to be found, and
`deepest` is the deepest column reached. -/
def blockBreaks (indent deepest : Nat) (ends : List Char) (p : Position) :
    List Char → Option (Nat × List Char × Position × List Char)
  | [] => some (max deepest p.column, ends, p, [])
  | c :: rest =>
    if c == ' ' && (indent == 0 || p.column < indent) then
      blockBreaks indent deepest ends (p.past c) rest
    else if c == '\t' && (indent == 0 || p.column < indent) then none
    else if isBreak c then
      blockBreaks indent (max deepest p.column) (c :: ends) p.newLine rest
    else some (max deepest p.column, ends, p, c :: rest)

/-- Reads the lines of a block scalar: `lead` is the line end before the next line, `ends` those of
the empty lines behind it, `leadBlank` whether the last line began with a blank. -/
def blockLines (fuel : Nat) (isLiteral : Bool) (chomping : Chomping) (indent : Nat)
    (text : List Char) (lead : Option Char) (ends : List Char) (leadBlank : Bool) (p : Position)
    (s : List Char) : Option Scanned :=
  match fuel, s with
  | fuel + 1, c :: rest =>
    if p.column == indent then
      let blank := isSpace c
      let text :=
        if !isLiteral && lead == some '\n' && !leadBlank && !blank then
          ends ++ (if ends.isEmpty then ' ' :: text else text)
        else ends ++ lead.toList ++ text
      let line := (c :: rest).takeWhile (! isBreak ·)
      let text := line.reverse ++ text
      match (c :: rest).dropWhile (! isBreak ·) with
      | [] => finish text none [] (p.through line) []
      | lineEnd :: rest =>
        match blockBreaks indent 0 [] p.newLine rest with
        | some (_, ends, p, rest) =>
          blockLines fuel isLiteral chomping indent text (some lineEnd) ends blank p rest
        | none => none
    else finish text lead ends p (c :: rest)
  | _, _ => finish text lead ends p s
where
  /-- Applies the chomping to the line ends behind the last line. -/
  finish (text : List Char) (lead : Option Char) (ends : List Char) (p : Position)
      (rest : List Char) : Option Scanned :=
    let text := if chomping == .strip then text else lead.toList ++ text
    let text := if chomping == .keep then ends ++ text else text
    some ⟨String.ofList text.reverse, p, rest⟩

/-- Reads a block scalar, behind its sign; `parent` is the indentation of the block around it. -/
def block (isLiteral : Bool) (parent : Int) (p : Position) (s : List Char) : Option Scanned := do
  let (header, tail) ← blockHeader? s
  let (p, rest) ← dropHeaderLine (p.skip (s.length - tail.length)) tail
  let stated := match header.increment with
    | some n => (if 0 ≤ parent then parent.toNat else 0) + n
    | none => 0
  let (deepest, ends, p, rest) ← blockBreaks stated 0 [] p rest
  let indent := if stated == 0 then max deepest (max (parent + 1).toNat 1) else stated
  blockLines (rest.length + 1) isLiteral header.chomping indent [] none ends false p rest

end Hack.Yaml
