/-!
Machine words of the Hack platform. A word has sixteen bits; it is read without sign when it is an
address and as a signed number when it is data. All arithmetic wraps.
-/

namespace Hack

/-- A machine word: `toNat` reads it as an address, `toInt` as signed data. -/
abbrev Word := BitVec 16

namespace Word

instance : LawfulBEq Word := inferInstance

/-- The largest value that a load instruction can hold: fifteen one bits. -/
def maxLiteral : Nat := 0x7FFF

/-- The signed decimal text of a word. -/
def text (w : Word) : String := toString w.toInt

end Word

end Hack
