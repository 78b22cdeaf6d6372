import Hack.Disk
import Hack.Text.Style

/-!
What a call of a program leaves behind: an exit code, the lines that it printed, and the files.
-/

namespace Hack.CommandLine

open Text

/-- The result of a call. -/
structure Outcome where
  exitCode : Nat
  /-- The printed lines, each of which is ended by a line feed. -/
  lines : List String
  disk : Disk

namespace Outcome

/-- The outcome of a call whose arguments break a rule: nothing is printed, nothing is done. -/
def usage (disk : Disk) : Outcome := ⟨2, [], disk⟩

/-- All that was printed. -/
def output (outcome : Outcome) : String :=
  outcome.lines.foldl (fun text line => text ++ line ++ "\n") ""

end Outcome

/-- The line that reports an error. -/
def errorLine (message : String) : String :=
  (Styled.strong .red "error" ++ Styled.raw (": " ++ message)).render

end Hack.CommandLine
