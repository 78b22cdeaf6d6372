/-!
Styled text for terminals. A styled text is a list of spans, each with one style; its written form
puts an escape sequence wherever the style changes from one span to the next, the colour before the
weight before the underline, and ends in plain style. Two neighbours of different colours are parted
by one sequence, and a span without characters still changes the style.

`plain` forgets the styles, and `dropEscapes` takes the escape sequences out of a written text.
-/

namespace Hack.Text

inductive Colour
  | red
  | green
  | yellow
  | blue
  | cyan
  deriving DecidableEq, Repr

inductive Weight
  | normal
  | bold
  | dim
  deriving DecidableEq, Repr

/-- How a span looks; the default is plain. -/
structure Style where
  colour : Option Colour := none
  weight : Weight := .normal
  underlined : Bool := false
  deriving DecidableEq, Repr

/-- A piece of text in one style. -/
structure Span where
  style : Style
  text : String
  deriving DecidableEq, Repr

/-- A text in which each piece has its style. -/
abbrev Styled := List Span

/-- The escape sequence with a numeric code. -/
def escape (code : String) : String := "\x1b[" ++ code ++ "m"

/-- The sequence that turns a colour on, or every colour off. -/
def colourCode : Option Colour → String
  | some .red => escape "31"
  | some .green => escape "32"
  | some .yellow => escape "33"
  | some .blue => escape "34"
  | some .cyan => escape "36"
  | none => escape "39"

/-- The sequence that turns a weight on; the normal weight ends the two others. -/
def weightCode : Weight → String
  | .bold => escape "1"
  | .dim => escape "2"
  | .normal => escape "22"

/-- The sequence that turns the underline on or off. -/
def underlineCode : Bool → String
  | true => escape "4"
  | false => escape "24"

/-- The sequences that lead from one style to another: nothing for what stays as it is. -/
def Style.change (old new : Style) : String :=
  (if old.colour = new.colour then "" else colourCode new.colour) ++
  (if old.weight = new.weight then "" else weightCode new.weight) ++
  (if old.underlined = new.underlined then "" else underlineCode new.underlined)

namespace Styled

/-- An unstyled text. -/
def raw (s : String) : Styled := [⟨{}, s⟩]

/-- A text in one colour. -/
def coloured (c : Colour) (s : String) : Styled := [⟨{ colour := some c }, s⟩]

/-- A text in one colour and bold. -/
def strong (c : Colour) (s : String) : Styled := [⟨{ colour := some c, weight := .bold }, s⟩]

/-- A dim text. -/
def dim (s : String) : Styled := [⟨{ weight := .dim }, s⟩]

/-- An underlined text. -/
def underlined (s : String) : Styled := [⟨{ underlined := true }, s⟩]

/-- The characters alone. -/
def plain (t : Styled) : String := t.foldr (fun span rest => span.text ++ rest) ""

/-- The written form from a current style on; it ends in plain style. -/
def renderFrom (current : Style) : Styled → String
  | [] => current.change {}
  | span :: rest => current.change span.style ++ span.text ++ renderFrom span.style rest

/-- The written form of a styled text. -/
def render (t : Styled) : String := renderFrom {} t

@[simp] theorem plain_append (s t : Styled) : plain (s ++ t) = plain s ++ plain t := by
  induction s with
  | nil => simp [plain]
  | cons span rest ih =>
    simp only [plain, List.cons_append, List.foldr_cons] at ih ⊢
    rw [ih, String.append_assoc]

end Styled

/-- What follows an escape sequence whose first two characters were read: the codes are skipped up
to the closing `m`. -/
def afterCodes : List Char → List Char
  | [] => []
  | 'm' :: rest => rest
  | _ :: rest => afterCodes rest

theorem length_afterCodes_le (s : List Char) : (afterCodes s).length ≤ s.length := by
  induction s with
  | nil => simp [afterCodes]
  | cons c rest ih =>
    unfold afterCodes
    split <;> simp_all
    omega

/-- A text without its escape sequences. -/
def dropEscapes : List Char → List Char
  | '\x1b' :: '[' :: rest => dropEscapes (afterCodes rest)
  | [] => []
  | c :: rest => c :: dropEscapes rest
termination_by s => s.length
decreasing_by
  · have := length_afterCodes_le rest
    simp only [List.length_cons]
    omega
  · simp

end Hack.Text
