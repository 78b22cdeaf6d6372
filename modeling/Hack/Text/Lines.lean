/-!
The lines of a text. A line ends at a line feed, and a carriage return just before that line feed
belongs to the line's end; a last line need not be ended. A carriage return anywhere else is an
ordinary character.
-/

namespace Hack.Text

/-- A line, given back to front, without the carriage return that stands before its line feed. -/
def closeLine : List Char → String
  | '\r' :: line => String.ofList line.reverse
  | line => String.ofList line.reverse

/-- The lines of a text, where `line` holds, back to front, what was read of the first. -/
def linesFrom (line : List Char) : List Char → List String
  | [] => if line.isEmpty then [] else [String.ofList line.reverse]
  | '\n' :: rest => closeLine line :: linesFrom [] rest
  | c :: rest => linesFrom (c :: line) rest

/-- The lines of a text; nothing after the last line feed is no line. -/
def lines (s : String) : List String := linesFrom [] s.toList

end Hack.Text
