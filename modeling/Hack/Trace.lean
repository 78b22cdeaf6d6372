import Hack.Instr.Encoding
import Hack.Machine.Basic

/-!
Traces: one line for every executed instruction, with the number of instructions before it, its
address, its word, its fields, and the registers after it.
-/

namespace Hack

open Text

/-- The line of a trace for the instruction at an address, which was executed after `time` others
and left the machine `m`. -/
def traceLine (time address : Nat) (instr : Instr) (m : Machine) : String :=
  (Styled.dim ("[" ++ padLeft 6 '0' (toString time) ++ "]") ++ Styled.raw " " ++
    Styled.coloured .blue (hexadecimal 4 address) ++
    Styled.raw (" " ++ binary 16 instr.encode.toNat ++ " ")).render ++
  padRight 24 instr.styled.render ++ " " ++
  (Styled.dim ("A=" ++ padRight 6 (Word.text m.a) ++ " D=" ++ padRight 6 (Word.text m.d))).render

end Hack
