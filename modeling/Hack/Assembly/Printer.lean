import Hack.Assembly.Basic
import Hack.Text.Style

/-!
The written forms of assembly statements: plain text, and the same text in colours.
-/

namespace Hack.Assembly

open Text

/-- The text of an operand. -/
def Operand.text : Operand → String
  | .value n => toString n.toNat
  | .symbol name => name

namespace Statement

/-- The text of a statement. A destination and a branch condition are written only if there is
one. -/
def text : Statement → String
  | .load operand => "@" ++ operand.text
  | .compute dest comp jump =>
    (if dest = .none then "" else dest.text ++ "=") ++ comp.text ++
      (if jump = .never then "" else ";" ++ jump.text)
  | .label name => "(" ++ name ++ ")"
  | .comment text => "// " ++ text

/-- The text of a statement in colours. -/
def styled : Statement → Styled
  | .load (.value n) => Styled.coloured .blue "@" ++ Styled.coloured .yellow (toString n.toNat)
  | .load (.symbol name) => Styled.coloured .blue "@" ++ Styled.coloured .green name
  | .compute dest comp jump =>
    (if dest = .none then [] else Styled.coloured .blue dest.text ++ Styled.raw "=") ++
      Styled.raw comp.text ++
      (if jump = .never then [] else Styled.raw ";" ++ Styled.coloured .red jump.text)
  | .label name => Styled.strong .green ("(" ++ name ++ ")")
  | .comment text => Styled.dim ("// " ++ text)

/-- The colours add nothing to the text. -/
theorem plain_styled (statement : Statement) : statement.styled.plain = statement.text := by
  cases statement with
  | load operand =>
    cases operand <;> simp [styled, text, Operand.text, Styled.coloured, Styled.plain]
  | compute dest comp jump =>
    simp only [styled, text, Styled.plain_append]
    split <;> split <;> simp [Styled.plain, Styled.coloured, Styled.raw]
  | label name => simp [styled, text, Styled.strong, Styled.plain]
  | comment words => simp [styled, text, Styled.dim, Styled.plain]

end Statement

/-- The text of a program, one statement a line. -/
def Program.text (program : Program) : String :=
  program.foldl (fun text statement => text ++ statement.text ++ "\n") ""

end Hack.Assembly
