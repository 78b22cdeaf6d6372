import Hack.Word

/-!
The branch condition of a computation: a comparison of its result, as a signed number, with zero.
-/

namespace Hack

inductive Jump
  | never
  | gt
  | eq
  | ge
  | lt
  | ne
  | le
  | always
  deriving DecidableEq, Repr

namespace Jump

/-- Every condition, in the order of their codes. -/
def all : List Jump := [.never, .gt, .eq, .ge, .lt, .ne, .le, .always]

/-- The mnemonic; a computation that never branches has none. -/
def text : Jump → String
  | .never => ""
  | .gt => "JGT"
  | .eq => "JEQ"
  | .ge => "JGE"
  | .lt => "JLT"
  | .ne => "JNE"
  | .le => "JLE"
  | .always => "JMP"

/-- The condition that a mnemonic names; the empty text names none. -/
def ofText? (s : String) : Option Jump :=
  all.find? fun jump => jump != .never && jump.text == s

/-- Whether a result branches. -/
def test (jump : Jump) (out : Word) : Bool :=
  match jump with
  | .never => false
  | .gt => decide (0 < out.toInt)
  | .eq => decide (out.toInt = 0)
  | .ge => decide (0 ≤ out.toInt)
  | .lt => decide (out.toInt < 0)
  | .ne => decide (out.toInt ≠ 0)
  | .le => decide (out.toInt ≤ 0)
  | .always => true

theorem mem_all (jump : Jump) : jump ∈ all := by cases jump <;> decide

/-- A mnemonic is read back as its condition. -/
theorem ofText?_text {jump : Jump} (h : jump ≠ .never) : ofText? jump.text = some jump := by
  cases jump <;> first | exact absurd rfl h | decide

end Jump

end Hack
