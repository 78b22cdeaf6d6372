import Hack.Instr.Comp
import Hack.Instr.Dest
import Hack.Instr.Jump
import Hack.Text.Numeral
import Hack.Text.Style

/-!
Instructions of the Hack machine, with every address resolved, and the coloured form in which a
trace shows them.
-/

namespace Hack

/-- An instruction: load a value into the `A` register, or compute. -/
inductive Instr
  | load (value : Word)
  | compute (dest : Dest) (comp : Comp) (jump : Jump)
  deriving DecidableEq, Repr

namespace Instr

open Text

/-- The form shown in a trace: a loaded value in four hexadecimal digits, the three fields of a
computation in columns. -/
def styled : Instr → Styled
  | .load value =>
    Styled.coloured .blue "@" ++ Styled.coloured .yellow ("0x" ++ hexadecimal 4 value.toNat)
  | .compute dest comp jump =>
    Styled.coloured .blue (padRight 4 dest.text) ++ Styled.coloured .red (padRight 4 comp.text) ++
      Styled.coloured .cyan (padRight 3 jump.text)

end Instr

end Hack
