/-!
Numerals: the digits of a number in a base, padded to a width, and the value of a text of decimal
digits.
-/

namespace Hack.Text

/-- Whether a text is made of ASCII digits only. -/
def allDigits (s : List Char) : Bool := s.all Char.isDigit

/-- The value of a text of decimal digits; the empty text counts as zero. -/
def decimalValue (s : List Char) : Nat := Nat.ofDigitChars 10 s 0

/-- The value of a text that consists of digits only, if it is at most `limit`. -/
def readDecimal? (limit : Nat) (s : List Char) : Option Nat :=
  if !s.isEmpty && allDigits s && decimalValue s ≤ limit then some (decimalValue s) else none

/-- A text filled up with `fill` on the left to `width` characters. -/
def padLeft (width : Nat) (fill : Char) (s : String) : String :=
  String.ofList (List.replicate (width - s.length) fill) ++ s

/-- A text filled up with spaces on the right to `width` characters. -/
def padRight (width : Nat) (s : String) : String :=
  s ++ String.ofList (List.replicate (width - s.length) ' ')

/-- A number in upper case hexadecimal digits, at least `width` of them. -/
def hexadecimal (width n : Nat) : String :=
  padLeft width '0' (String.ofList ((Nat.toDigits 16 n).map Char.toUpper))

/-- A number in binary digits, at least `width` of them. -/
def binary (width n : Nat) : String := padLeft width '0' (String.ofList (Nat.toDigits 2 n))

/-- Printing a number and reading its digits gives the number back. -/
theorem decimalValue_toDigits (n : Nat) : decimalValue (Nat.toDigits 10 n) = n :=
  Nat.ofDigitChars_toDigits (by decide) (by decide)

theorem allDigits_toDigits (n : Nat) : allDigits (Nat.toDigits 10 n) = true :=
  List.all_eq_true.2 fun _ member => Nat.isDigit_of_mem_toDigits (by decide) (by decide) member

/-- Different numbers are printed differently. -/
theorem toString_inj {m n : Nat} (same : toString m = toString n) : m = n := by
  have digits := congrArg String.toList same
  rw [Nat.toString_eq_repr, Nat.toString_eq_repr, Nat.toList_repr, Nat.toList_repr] at digits
  rw [← decimalValue_toDigits m, digits, decimalValue_toDigits]

end Hack.Text
