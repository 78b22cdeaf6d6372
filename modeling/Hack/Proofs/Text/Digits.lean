import Mathlib
import Hack.Proofs.Text.Numerals
import Hack.Proofs.Text.Words
import Hack.Word
import Hack.Yaml.Scalar

/-!
Printed numbers, read back.

The digits of a number give the number again in every base in which it is printed, behind zeros or
not (`hexText?_hexadecimal`, `ofDigitChars_binary`, `IsNumeral.toNat?_eq`), and the signed text of a
word gives the word (`toInt?_text`). No blank and no mark stands in any of these texts
(`IsNumber`).
-/

namespace Hack.Text

/-! ## Which characters stand in a number -/

/-- A text that can be that of a number: letters and digits, or signs. -/
structure IsNumber (s : List Char) : Prop where
  ne_nil : s ≠ []
  figures : ∀ c ∈ s, c.isAlphanum = true ∨ c = '-'

variable {s : List Char}

theorem IsNumber.isWord (number : IsNumber s) : IsWord s where
  ne_nil := number.ne_nil
  solid c member := by
    rcases number.figures c member with alphanum | rfl
    · exact isBlank_of_isAlphanum alphanum
    · decide

theorem IsNumber.not_mem (number : IsNumber s) {mark : Char} (noFigure : mark.isAlphanum = false)
    (noSign : mark ≠ '-') : mark ∉ s := by
  intro member
  rcases number.figures mark member with alphanum | sign
  · rw [noFigure] at alphanum
    cases alphanum
  · exact noSign sign

theorem isAlphanum_of_isDigit {c : Char} (digit : c.isDigit = true) : c.isAlphanum = true := by
  rw [Char.isAlphanum, digit, Bool.or_true]

theorem isNumber_of_allDigits (some : s ≠ []) (digits : Text.allDigits s = true) : IsNumber s where
  ne_nil := some
  figures c member := Or.inl (isAlphanum_of_isDigit (List.all_eq_true.1 digits c member))

/-- Zeros in front of a number. -/
theorem IsNumber.padLeft {text : String} (number : IsNumber text.toList) (width : Nat) :
    IsNumber (padLeft width '0' text).toList := by
  rw [Text.padLeft, String.toList_append, String.toList_ofList]
  refine ⟨List.append_ne_nil_of_right_ne_nil _ number.ne_nil, fun c member => ?_⟩
  rcases List.mem_append.1 member with zero | figure
  · rw [List.eq_of_mem_replicate zero]
    exact Or.inl (by decide)
  · exact number.figures c figure

/-! ## Decimal numerals -/

/-- A numeral is read as the number of which it is the digits. -/
theorem IsNumeral.toNat?_eq {text : String} {n : Nat} (numeral : IsNumeral text.toList n) :
    text.toNat? = some n := by
  have digits := List.all_eq_true.1 numeral.allDigits
  -- the reader also takes underscores between digits, but there are none
  have noMark : '_' ∉ text.toList := fun member => absurd (digits '_' member) (by decide)
  have isNat : text.isNat = true := by
    refine String.isNat_iff.2 ⟨?_, fun c member => Or.inl (digits c member), ?_, ?_, ?_⟩
    · rintro rfl
      exact numeral.ne_nil rfl
    · exact fun twice => noMark (twice.subset List.mem_cons_self)
    · exact fun first => noMark (List.mem_of_head? first)
    · exact fun last => noMark (List.mem_of_getLast? last)
  have kept : text.toList.filter (· != '_') = text.toList :=
    List.filter_eq_self.2 fun c member => bne_iff_ne.2 (ne_of_mem_of_not_mem member noMark)
  rw [String.toNat?_eq_some_ofDigitChars isNat, kept]
  exact congrArg some numeral.decimalValue_eq

theorem isNumeral_padLeft (width n : Nat) :
    IsNumeral (padLeft width '0' (toString n)).toList n := by
  refine ⟨width - (toString n).length, ?_⟩
  rw [padLeft, String.toList_append, String.toList_ofList, Nat.toString_eq_repr, Nat.toList_repr]

theorem isNumber_toString (n : Nat) : IsNumber (toString n).toList := by
  rw [Nat.toString_eq_repr, Nat.toList_repr]
  exact isNumber_of_allDigits Nat.toDigits_ne_nil (allDigits_toDigits n)

theorem toNat?_toString (n : Nat) : (toString n).toNat? = some n := by
  rw [Nat.toString_eq_repr, Nat.toNat?_repr]

/-! ## Signed words -/

/-- The text of a word is read back as its value. -/
theorem toInt?_text (w : Word) : (Word.text w).toInt? = some w.toInt := by
  rw [Word.text, Int.toString_eq_repr, Int.toInt?_repr]

theorem isNumber_text (w : Word) : IsNumber (Word.text w).toList := by
  rw [Word.text]
  cases w.toInt with
  | ofNat n => exact isNumber_toString n
  | negSucc n =>
    have number := isNumber_toString (n + 1)
    have sign : (toString (Int.negSucc n)).toList = '-' :: (toString (n + 1)).toList :=
      String.toList_append
    rw [sign]
    exact ⟨List.cons_ne_nil _ _, List.forall_mem_cons.2 ⟨Or.inr rfl, number.figures⟩⟩

/-! ## Binary digits -/

theorem ofDigitChars_binary (width n : Nat) :
    Nat.ofDigitChars 2 (binary width n).toList 0 = n := by
  rw [binary, padLeft, String.toList_append, String.toList_ofList, String.toList_ofList,
    Nat.ofDigitChars_append, Nat.ofDigitChars_replicate_zero, Nat.mul_zero]
  exact Nat.ofDigitChars_toDigits (by decide) (by decide)

theorem isNumber_binary (width n : Nat) : IsNumber (binary width n).toList := by
  refine IsNumber.padLeft ?_ width
  rw [String.toList_ofList]
  exact isNumber_of_allDigits Nat.toDigits_ne_nil (List.all_eq_true.2 fun _ member =>
    Nat.isDigit_of_mem_toDigits (by decide) (by decide) member)

/-! ## Hexadecimal digits -/

theorem toDigits_eq_concat {b n : Nat} (base : 1 < b) (large : b ≤ n) :
    Nat.toDigits b n = Nat.toDigits b (n / b) ++ [Nat.digitChar (n % b)] := by
  have last : n % b < b := Nat.mod_lt n (Nat.lt_of_succ_lt base)
  have before : 0 < n / b := Nat.div_pos large (Nat.lt_of_succ_lt base)
  rw [← Nat.toDigits_of_lt_base last, Nat.toDigits_append_toDigits base before last,
    Nat.div_add_mod]

theorem exists_digitChar_of_mem {b n : Nat} (base : 1 < b) {c : Char}
    (member : c ∈ Nat.toDigits b n) : ∃ d < b, c = Nat.digitChar d := by
  induction n using Nat.strong_induction_on with
  | h n ih =>
    rcases Nat.lt_or_ge n b with small | large
    · rw [Nat.toDigits_of_lt_base small] at member
      exact ⟨n, small, List.mem_singleton.1 member⟩
    · rw [toDigits_eq_concat base large] at member
      rcases List.mem_append.1 member with before | last
      · exact ih (n / b) (Nat.div_lt_self (by omega) base) before
      · exact ⟨n % b, Nat.mod_lt n (by omega), List.mem_singleton.1 last⟩

theorem hexText?_toDigits (n : Nat) :
    Yaml.hexText? ((Nat.toDigits 16 n).map Char.toUpper) = some n := by
  have digit : ∀ d < 16, Yaml.hexValue? (Nat.digitChar d).toUpper = some d := by decide
  induction n using Nat.strong_induction_on with
  | h n ih =>
    rcases Nat.lt_or_ge n 16 with small | large
    · rw [Nat.toDigits_of_lt_base small]
      simp [Yaml.hexText?, digit n small]
    · have before := ih (n / 16) (by omega)
      rw [toDigits_eq_concat (by decide) large, List.map_append, Yaml.hexText?, List.foldlM_append]
      rw [Yaml.hexText?] at before
      rw [before]
      simp [digit _ (Nat.mod_lt n (by decide)), Nat.div_add_mod]

/-- The digits of a number are read back, with zeros before them or not. -/
theorem hexText?_hexadecimal (width n : Nat) :
    Yaml.hexText? (hexadecimal width n).toList = some n := by
  have zeros (k : Nat) (s : List Char) :
      Yaml.hexText? (List.replicate k '0' ++ s) = Yaml.hexText? s := by
    induction k with
    | zero => rfl
    | succ k ih => exact ih
  rw [hexadecimal, padLeft, String.toList_append, String.toList_ofList, String.toList_ofList, zeros]
  exact hexText?_toDigits n

theorem isNumber_hexadecimal (width n : Nat) : IsNumber (hexadecimal width n).toList := by
  have figure : ∀ d < 16, (Nat.digitChar d).toUpper.isAlphanum = true := by decide
  refine IsNumber.padLeft ?_ width
  rw [String.toList_ofList]
  refine ⟨fun none => Nat.toDigits_ne_nil (List.map_eq_nil_iff.1 none), fun c member => ?_⟩
  obtain ⟨digit, inDigits, rfl⟩ := List.mem_map.1 member
  obtain ⟨d, small, rfl⟩ := exists_digitChar_of_mem (by decide) inDigits
  exact Or.inl (figure d small)

end Hack.Text
