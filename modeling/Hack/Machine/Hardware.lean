import Hack.Machine.Basic

/-!
The machine as its hardware reads words. `Machine.execute` follows the fields of an instruction;
here single bits of a word switch the two inputs and the output of the arithmetic unit, open the
places that take the result, and select the branch. Every word has a meaning, also one that encodes
no instruction.

`executeWord` leaves the halt flag alone: hardware has none.
-/

namespace Hack

/-- The six bits that control the arithmetic unit. -/
structure Control where
  /-- The first input is replaced by zero. -/
  zeroX : Bool
  /-- The first input is complemented, after it was perhaps replaced. -/
  notX : Bool
  /-- The second input is replaced by zero. -/
  zeroY : Bool
  /-- The second input is complemented, after it was perhaps replaced. -/
  notY : Bool
  /-- The inputs are added; otherwise each bit is set where both inputs have it. -/
  adds : Bool
  /-- The result is complemented. -/
  notOut : Bool
  deriving DecidableEq, Repr

namespace Control

/-- The control bits of a word: bits 11 to 6. -/
def ofWord (w : Word) : Control :=
  { zeroX := w.getLsbD 11
    notX := w.getLsbD 10
    zeroY := w.getLsbD 9
    notY := w.getLsbD 8
    adds := w.getLsbD 7
    notOut := w.getLsbD 6 }

/-- An input after its two switches. -/
def input (zero complement : Bool) (v : Word) : Word :=
  let v := if zero then 0 else v
  if complement then ~~~v else v

/-- What the arithmetic unit gives for two inputs. -/
def output (control : Control) (x y : Word) : Word :=
  let x := input control.zeroX control.notX x
  let y := input control.zeroY control.notY y
  let out := if control.adds then x + y else x &&& y
  if control.notOut then ~~~out else out

end Control

/-- Whether the branch bits of a word select a result: bit 2 the negative ones, bit 1 zero, bit 0
the positive ones. -/
def Word.selects (w out : Word) : Bool :=
  (w.getLsbD 2 && decide (out.toInt < 0)) || (w.getLsbD 1 && decide (out.toInt = 0)) ||
    (w.getLsbD 0 && decide (0 < out.toInt))

/-- The machine after a word. With its top bit clear the word is loaded into `A`. Otherwise bit 12
takes the second input from memory, and bits 5, 4, 3 store the result in `A`, in `D` and in the cell
that `A` addressed before. -/
def Machine.executeWord (m : Machine) (w : Word) : Machine :=
  if w.getLsbD 15 then
    let y := if w.getLsbD 12 then m.get m.a else m.a
    let out := (Control.ofWord w).output m.d y
    { m with
      a := if w.getLsbD 5 then out else m.a
      d := if w.getLsbD 4 then out else m.d
      ram := if w.getLsbD 3 then m.ram.set m.a out else m.ram
      pc := if w.selects out then m.a.toNat else m.pc + 1 }
  else { m with a := w, pc := m.pc + 1 }

end Hack
