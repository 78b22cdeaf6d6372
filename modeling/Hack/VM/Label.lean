/-!
The labels of compiled comparisons. Every comparison of a source unit has a number, counted from
one, and two labels with that number.
-/

namespace Hack.VM

/-- The number of the last comparison. -/
structure LabelCounter where
  count : Nat := 0
  deriving DecidableEq, Repr

/-- The two jump targets of a comparison. -/
structure LabelPair where
  onTrue : String
  finish : String
  deriving DecidableEq, Repr

/-- The labels of the comparison with a number. -/
def LabelPair.ofNumber (n : Nat) : LabelPair := ⟨"TRUE$" ++ toString n, "END$" ++ toString n⟩

namespace LabelCounter

/-- The counter after one more comparison; its count is that comparison's number. -/
def next (counter : LabelCounter) : LabelCounter := ⟨counter.count + 1⟩

/-- The labels of the comparison counted last. -/
def labels (counter : LabelCounter) : LabelPair := LabelPair.ofNumber counter.count

end LabelCounter

end Hack.VM
