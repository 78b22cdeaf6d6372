import Hack.Text.Blank
import Mathlib.Data.List.TakeWhile

/-!
The words of a text that was put together from words.

A word that is followed by a blank is the first word of the text (`words_append_cons`), and a text
without blanks is its only word (`words_eq_singleton`).

A word is known by a search among the texts of a finite kind of things.
-/

namespace Hack.Text

/-- A text that is one word. -/
structure IsWord (word : List Char) : Prop where
  ne_nil : word ≠ []
  solid : ∀ c ∈ word, isBlank c = false

theorem toNat_bounds_of_isAlphanum {c : Char} (alphanum : c.isAlphanum = true) :
    48 ≤ c.toNat ∧ c.toNat ≤ 122 := by
  rcases Bool.or_eq_true_iff.1 alphanum with letter | digit
  · rcases Bool.or_eq_true_iff.1 letter with upper | lower
    · obtain ⟨low, high⟩ := of_decide_eq_true upper
      have low : 65 ≤ c.toNat := UInt32.le_iff_toNat_le.1 low
      have high : c.toNat ≤ 90 := UInt32.le_iff_toNat_le.1 high
      omega
    · obtain ⟨low, high⟩ := Bool.and_eq_true_iff.1 lower
      have low : 97 ≤ c.toNat := UInt32.le_iff_toNat_le.1 (of_decide_eq_true low)
      have high : c.toNat ≤ 122 := UInt32.le_iff_toNat_le.1 (of_decide_eq_true high)
      omega
  · have inside : 48 ≤ c.toNat ∧ c.toNat ≤ 57 := Char.isDigit_iff_toNat.1 digit
    omega

theorem isBlank_of_isAlphanum {c : Char} (alphanum : c.isAlphanum = true) : isBlank c = false := by
  have bounds := toNat_bounds_of_isAlphanum alphanum
  simp only [isBlank, Bool.or_eq_false_iff, Bool.and_eq_false_iff, decide_eq_false_iff_not,
    beq_eq_false_iff_ne]
  omega

/-- Characters that are not blank are kept with what was read of their word. -/
theorem wordsFrom_append {word : List Char} (solid : ∀ c ∈ word, isBlank c = false)
    (read rest : List Char) : wordsFrom read (word ++ rest) = wordsFrom (word.reverse ++ read) rest := by
  induction word generalizing read with
  | nil => rfl
  | cons c word ih =>
    have letter : ¬ isBlank c = true := by simp [solid c List.mem_cons_self]
    rw [List.cons_append, wordsFrom, if_neg letter, ih fun other member => solid other (.tail _ member),
      List.reverse_cons, List.append_assoc, List.singleton_append]

theorem words_append_cons {word : List Char} (isWord : IsWord word) {blank : Char}
    (isBlank : isBlank blank = true) (rest : List Char) :
    words (word ++ blank :: rest) = word :: words rest := by
  have unfinished : ¬ word.reverse.isEmpty = true := by simp [isWord.ne_nil]
  rw [words, wordsFrom_append isWord.solid, List.append_nil, wordsFrom, if_pos isBlank, if_neg unfinished,
    List.reverse_reverse]
  rfl

theorem words_eq_singleton {word : List Char} (isWord : IsWord word) : words word = [word] := by
  have unfinished : ¬ word.reverse.isEmpty = true := by simp [isWord.ne_nil]
  have whole := wordsFrom_append isWord.solid [] []
  rw [List.append_nil, List.append_nil] at whole
  rw [words, whole, wordsFrom, if_neg unfinished, List.reverse_reverse]

/-- A word stays one with more letters before and behind it. -/
theorem IsWord.affix {s : String} (isWord : IsWord s.toList) (front back : String)
    (before : front.toList.all (! isBlank ·) = true)
    (behind : back.toList.all (! isBlank ·) = true) : IsWord (front ++ s ++ back).toList := by
  have letter {part : String} (letters : part.toList.all (! isBlank ·) = true) :
      ∀ c ∈ part.toList, isBlank c = false := by
    simpa using letters
  rw [String.toList_append, String.toList_append]
  refine ⟨by simp [isWord.ne_nil], fun c member => ?_⟩
  rw [List.mem_append, List.mem_append] at member
  rcases member with (inFront | inside) | inBack
  · exact letter before c inFront
  · exact isWord.solid c inside
  · exact letter behind c inBack

/-! ## Known words -/

section Known

variable {α : Type} {all : List α} {text : α → String} {word : String}

theorem text_of_find? {x : α} (found : (all.find? fun x => text x == word) = some x) :
    text x = word := by
  have hit := List.find?_some found
  exact eq_of_beq hit

theorem find?_text_eq_none_iff (complete : ∀ x, x ∈ all) :
    (all.find? fun x => text x == word) = none ↔ ∀ x, text x ≠ word := by
  rw [List.find?_eq_none]
  constructor
  · intro missing x same
    exact missing x (complete x) (beq_iff_eq.2 same)
  · intro unknown x _ hit
    exact unknown x (eq_of_beq hit)

/-- The words that are known, each with what it stands for. -/
theorem text_eq_iff (complete : ∀ x, x ∈ all) {x : α} :
    text x = word ↔ (word, x) ∈ all.map fun x => (text x, x) := by
  rw [List.mem_map]
  constructor
  · intro same
    exact ⟨x, complete x, by rw [same]⟩
  · intro listed
    obtain ⟨_, _, pair⟩ := listed
    cases pair
    rfl

/-- A word that is not among the texts may still stand in a table of other spellings. -/
theorem spelling_cases {table : List (String × α)} {x : α}
    (found : ((all.find? fun x => text x == word).or (table.lookup word)) = some x) :
    word = text x ∨ (word, x) ∈ table := by
  rcases Option.or_eq_some_iff.1 found with canonical | ⟨_, other⟩
  · exact Or.inl (text_of_find? canonical).symm
  · obtain ⟨front, back, split, _⟩ := List.lookup_eq_some_iff.1 other
    rw [split]
    exact Or.inr (List.mem_append_right front List.mem_cons_self)

end Known

/-! ## Blanks at the ends -/

/-- Nothing is left exactly of a text of blanks. -/
theorem trim_eq_nil_iff {s : List Char} : trim s = [] ↔ s.all isBlank = true := by
  rw [trim, List.reverse_eq_nil_iff, List.dropWhile_eq_nil_iff, List.all_eq_true]
  constructor
  · intro blanks c member
    rw [← @List.takeWhile_append_dropWhile _ isBlank s] at member
    rcases List.mem_append.1 member with before | behind
    · exact List.mem_takeWhile_imp before
    · exact blanks c (List.mem_reverse.2 behind)
  · intro blanks c member
    rw [List.dropWhile_eq_nil_iff.2 blanks] at member
    cases member

end Hack.Text
