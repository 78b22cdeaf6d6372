/-!
Symbols: the texts that may name a label, a variable or a source unit.
-/

namespace Hack

/-- The characters of symbols: ASCII letters and digits, `_`, `.`, `$` and `:`. -/
def isSymbolChar (c : Char) : Bool :=
  c.isAlphanum || c == '_' || c == '.' || c == '$' || c == ':'

/-- Whether a text, as a list of characters, is a symbol: it is not empty, has symbol characters
only and does not start with a digit. -/
def isSymbolChars : List Char → Bool
  | [] => false
  | c :: rest => !c.isDigit && (c :: rest).all isSymbolChar

/-- Whether a text is a symbol. -/
def isSymbol (s : String) : Bool := isSymbolChars s.toList

theorem isSymbolChar_of_isDigit {c : Char} (digit : c.isDigit = true) : isSymbolChar c = true := by
  simp [isSymbolChar, Char.isAlphanum, digit]

theorem all_isSymbolChar_toDigits (n : Nat) : (Nat.toDigits 10 n).all isSymbolChar = true := by
  refine List.all_eq_true.2 fun c member => ?_
  exact isSymbolChar_of_isDigit (Nat.isDigit_of_mem_toDigits (by decide) (by decide) member)

theorem all_of_isSymbolChars {s : List Char} (symbol : isSymbolChars s = true) :
    s.all isSymbolChar = true := by
  cases s with
  | nil => rfl
  | cons c rest => exact (Bool.and_eq_true_iff.1 symbol).2

/-- A symbol stays one whatever symbol characters follow. -/
theorem isSymbol_append {s t : String} (symbol : isSymbol s = true)
    (chars : t.toList.all isSymbolChar = true) : isSymbol (s ++ t) = true := by
  unfold isSymbol at symbol ⊢
  rw [String.toList_append]
  cases letters : s.toList with
  | nil =>
    rw [letters] at symbol
    cases symbol
  | cons c rest =>
    rw [letters] at symbol
    rw [List.cons_append, isSymbolChars, ← List.cons_append, List.all_append, chars, Bool.and_true]
    exact symbol

end Hack
