import Hack.Text.Numeral
import Mathlib.Data.List.Induction

/-!
What a numeral looks like.

A numeral is the digits of a number behind any number of zeros. Every text of digits is one, for
exactly one number (`exists_isNumeral_iff`, `IsNumeral.decimalValue_eq`), and the reader of numbers
accepts the numerals up to its limit (`readDecimal?_eq_some_iff`).
-/

namespace Hack.Text

/-- A text is the digits of a number, perhaps with zeros before them. -/
def IsNumeral (s : List Char) (n : Nat) : Prop :=
  ∃ zeros, s = List.replicate zeros '0' ++ Nat.toDigits 10 n

variable {s : List Char} {n : Nat}

theorem IsNumeral.ne_nil (numeral : IsNumeral s n) : s ≠ [] := by
  obtain ⟨zeros, rfl⟩ := numeral
  exact List.append_ne_nil_of_right_ne_nil _ Nat.toDigits_ne_nil

theorem IsNumeral.allDigits (numeral : IsNumeral s n) : allDigits s = true := by
  obtain ⟨zeros, rfl⟩ := numeral
  refine List.all_eq_true.2 fun c member => ?_
  rcases List.mem_append.1 member with zero | digit
  · rw [List.eq_of_mem_replicate zero]
    rfl
  · exact List.all_eq_true.1 (allDigits_toDigits n) c digit

/-- A numeral stands for one number only. -/
theorem IsNumeral.decimalValue_eq (numeral : IsNumeral s n) : decimalValue s = n := by
  obtain ⟨zeros, rfl⟩ := numeral
  rw [decimalValue, Nat.ofDigitChars_append, Nat.ofDigitChars_replicate_zero, Nat.mul_zero]
  exact decimalValue_toDigits n

theorem exists_digitChar {c : Char} (digit : c.isDigit = true) : ∃ d < 10, c = Nat.digitChar d := by
  have digits : ∀ d < 10, Char.ofNat (48 + d) = Nat.digitChar d := by decide
  have bounds : 48 ≤ c.toNat ∧ c.toNat ≤ 57 := Char.isDigit_iff_toNat.1 digit
  have small : c.toNat - 48 < 10 := by omega
  refine ⟨c.toNat - 48, small, ?_⟩
  rw [← digits _ small, Nat.add_sub_cancel' bounds.1, Char.ofNat_toNat]

/-- One digit more. Behind zeros alone, the last of them is a leading zero now. -/
theorem IsNumeral.concat (numeral : IsNumeral s n) {d : Nat} (small : d < 10) :
    IsNumeral (s ++ [Nat.digitChar d]) (10 * n + d) := by
  have last : Nat.toDigits 10 d = [Nat.digitChar d] := Nat.toDigits_of_lt_base small
  obtain ⟨zeros, rfl⟩ := numeral
  by_cases zero : n = 0
  · refine ⟨zeros + 1, ?_⟩
    rw [zero, Nat.mul_zero, Nat.zero_add, last, Nat.toDigits_zero, List.replicate_succ']
  · refine ⟨zeros, ?_⟩
    rw [List.append_assoc, ← last,
      Nat.toDigits_append_toDigits (by decide) (Nat.pos_of_ne_zero zero) small]

/-- Every text of digits is a numeral. -/
theorem isNumeral_of_allDigits (some : s ≠ []) (digits : Text.allDigits s = true) :
    ∃ n, IsNumeral s n := by
  induction s using List.reverseRecOn with
  | nil => exact absurd rfl some
  | append_singleton front c ih =>
    rw [Text.allDigits, List.all_append, Bool.and_eq_true, List.all_cons,
      List.all_nil, Bool.and_true] at digits
    obtain ⟨d, small, rfl⟩ := exists_digitChar digits.2
    by_cases first : front = []
    · refine ⟨d, 0, ?_⟩
      rw [first, Nat.toDigits_of_lt_base small]
      rfl
    · obtain ⟨n, numeral⟩ := ih first digits.1
      exact ⟨10 * n + d, numeral.concat small⟩

theorem exists_isNumeral_iff : (∃ n, IsNumeral s n) ↔ s ≠ [] ∧ ∀ c ∈ s, c.isDigit = true := by
  constructor
  · intro numeral
    obtain ⟨n, numeral⟩ := numeral
    exact ⟨numeral.ne_nil, List.all_eq_true.1 numeral.allDigits⟩
  · intro digits
    exact isNumeral_of_allDigits digits.1 (List.all_eq_true.2 digits.2)

/-- **A number is read from its numerals,** unless it is above the limit. -/
theorem readDecimal?_eq_some_iff {limit : Nat} :
    readDecimal? limit s = some n ↔ IsNumeral s n ∧ n ≤ limit := by
  rw [readDecimal?]
  split
  · next digits =>
    simp only [Bool.and_eq_true, Bool.not_eq_true', List.isEmpty_eq_false_iff,
      decide_eq_true_eq] at digits
    obtain ⟨m, numeral⟩ := isNumeral_of_allDigits digits.1.1 digits.1.2
    have fits := digits.2
    rw [numeral.decimalValue_eq] at fits ⊢
    rw [Option.some.injEq]
    constructor
    · intro same
      subst same
      exact ⟨numeral, fits⟩
    · intro other
      rw [← numeral.decimalValue_eq, other.1.decimalValue_eq]
  · next refused =>
    simp only [reduceCtorEq, false_iff, not_and]
    intro numeral fits
    refine refused ?_
    rw [numeral.decimalValue_eq, numeral.allDigits, decide_eq_true fits]
    simp [numeral.ne_nil]

theorem readDecimal?_eq_none_iff {limit : Nat} :
    readDecimal? limit s = none ↔ ∀ n, IsNumeral s n → limit < n := by
  simp only [Option.eq_none_iff_forall_ne_some, ne_eq, readDecimal?_eq_some_iff, not_and, Nat.not_le]

end Hack.Text
