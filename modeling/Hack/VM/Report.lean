import Hack.VM.Compilation

/-!
Diagnostics as they are printed: the severity with the wording, the place, and the source line
between two rules.
-/

namespace Hack.VM

open Text

/-- The coloured word for a severity. -/
def Severity.styled : Severity → Styled
  | .error => Styled.strong .red "error"
  | .warning => Styled.strong .yellow "warn"
  | .note => Styled.strong .green "note"

/-- The lines of a diagnostic about a line of a source file. -/
def Diagnostic.report (path raw : String) (d : Diagnostic) : List String :=
  let number := toString (d.index + 1)
  let rule := Styled.raw "      " ++ Styled.coloured .blue "|"
  [d.severity.styled ++ Styled.raw (": " ++ d.text),
   Styled.raw "     " ++ Styled.coloured .blue "-->" ++ Styled.raw " " ++
     Styled.underlined (path ++ ":" ++ number),
   rule,
   Styled.raw " " ++ Styled.coloured .blue (padLeft 4 ' ' number ++ " |") ++
     Styled.raw (" " ++ raw),
   rule].map Styled.render

/-- The lines of all diagnostics of a compilation. -/
def SourceUnit.report (unit : SourceUnit) (c : Compilation) : List String :=
  let lines := unit.lines.toArray
  c.messages.toList.flatMap fun d =>
    d.report unit.path ((lines[d.index]?.map Line.raw).getD "")

end Hack.VM
