import Hack.Text.Cut
import Hack.Text.Numeral
import Hack.Proofs.Text.Words
import Mathlib.Data.List.DropRight

/-!
How a line splits, said without saying how it is done.

`BeforeComment` relates a text to what stands before its first `//`, and `InWords` relates a text to
the words that blanks part in it. Every text has exactly one part before the comment and one row of
words, and these are what the cut and the search for words find (`beforeComment_cutComment`,
`BeforeComment.fst_cutComment`, `words_eq_iff`). Blanks at the ends of a text part no words, so they
may be taken off first (`words_trim`). Texts that a blank parts have their words one after the other
(`words_append`), and so does a column that is wider than its text (`words_padRight_append`).
-/

namespace Hack.Text

/-! ## The comment of a line -/

/-- The part of a text before its first `//`, or all of it if there is none. The slashes are the
first ones if not even the first of them makes a `//` with what stands before. -/
inductive BeforeComment : List Char → List Char → Prop
  | whole {s : List Char} : ¬ ['/', '/'] <:+: s → BeforeComment s s
  | cut {code comment : List Char} :
    ¬ ['/', '/'] <:+: code ++ ['/'] → BeforeComment (code ++ '/' :: '/' :: comment) code

/-- Whether a text opens with `//` is settled by its characters up to some slash. -/
theorem slashes_isPrefix_iff (c : Char) (code rest : List Char) :
    ['/', '/'] <+: c :: (code ++ '/' :: rest) ↔ ['/', '/'] <+: c :: (code ++ ['/']) := by
  cases code with
  | nil => simp
  | cons next code => simp

theorem cutComment_cons {c : Char} {rest : List Char} (other : ¬ ['/', '/'] <+: c :: rest) :
    cutComment (c :: rest) = (c :: (cutComment rest).1, (cutComment rest).2) := by
  rw [cutComment]
  rintro more rfl rfl
  exact other ⟨more, rfl⟩

theorem cutComment_of_no_slashes {s : List Char} (absent : ¬ ['/', '/'] <:+: s) :
    cutComment s = (s, none) := by
  induction s with
  | nil => rfl
  | cons c rest ih =>
    rw [List.infix_cons_iff, not_or] at absent
    rw [cutComment_cons absent.1, ih absent.2]

/-- A comment begins at the first `//`. -/
theorem cutComment_append {code : List Char} (first : ¬ ['/', '/'] <:+: code ++ ['/'])
    (comment : List Char) : cutComment (code ++ '/' :: '/' :: comment) = (code, some comment) := by
  induction code with
  | nil => rfl
  | cons c code ih =>
    rw [List.cons_append, List.infix_cons_iff, not_or, ← slashes_isPrefix_iff c code] at first
    rw [List.cons_append, cutComment_cons first.1, ih first.2]

theorem BeforeComment.fst_cutComment {s code : List Char} (before : BeforeComment s code) :
    (cutComment s).1 = code := by
  cases before with
  | whole absent => rw [cutComment_of_no_slashes absent]
  | cut first => rw [cutComment_append first]

theorem BeforeComment.cons {c : Char} {rest code : List Char}
    (other : ¬ ['/', '/'] <+: c :: rest) (before : BeforeComment rest code) :
    BeforeComment (c :: rest) (c :: code) := by
  cases before with
  | whole absent =>
    refine .whole ?_
    rw [List.infix_cons_iff, not_or]
    exact ⟨other, absent⟩
  | @cut code comment first =>
    rw [slashes_isPrefix_iff] at other
    refine @BeforeComment.cut (c :: code) comment ?_
    rw [List.cons_append, List.infix_cons_iff, not_or]
    exact ⟨other, first⟩

theorem beforeComment_cutComment (s : List Char) : BeforeComment s (cutComment s).1 := by
  induction s with
  | nil => exact .whole (by simp)
  | cons c rest ih =>
    by_cases opens : ['/', '/'] <+: c :: rest
    · obtain ⟨comment, split⟩ := opens
      rw [← split]
      exact @BeforeComment.cut [] comment (by decide)
    · rw [cutComment_cons opens]
      exact ih.cons opens

/-- A text either has no `//` or a comment behind its first one. -/
theorem cutComment_cases (s : List Char) :
    (¬ ['/', '/'] <:+: s ∧ cutComment s = (s, none)) ∨
      ∃ code comment, s = code ++ '/' :: '/' :: comment ∧ ¬ ['/', '/'] <:+: code ++ ['/'] ∧
        cutComment s = (code, some comment) := by
  generalize found : (cutComment s).1 = code
  have before := beforeComment_cutComment s
  rw [found] at before
  cases before with
  | whole absent => exact Or.inl ⟨absent, cutComment_of_no_slashes absent⟩
  | @cut _ comment first =>
    exact Or.inr ⟨code, comment, rfl, first, cutComment_append first comment⟩

theorem fst_cutComment_isPrefix (s : List Char) : (cutComment s).1 <+: s := by
  rcases cutComment_cases s with ⟨_, whole⟩ | ⟨code, comment, split, _, cut⟩
  · simp [whole]
  · rw [cut, split]
    exact List.prefix_append code _

theorem isSuffix_of_snd_cutComment {s comment : List Char}
    (found : (cutComment s).2 = some comment) : comment <:+ s := by
  rcases cutComment_cases s with ⟨_, whole⟩ | ⟨code, _, split, _, cut⟩
  · rw [whole] at found
    cases found
  · rw [cut] at found
    cases found
    rw [split]
    exact ⟨code ++ ['/', '/'], by simp⟩

theorem no_slashes_of_concat {s : List Char} {c : Char} (absent : ¬ ['/', '/'] <:+: s ++ [c]) :
    ¬ ['/', '/'] <:+: s :=
  fun slashes => absent (slashes.trans (List.prefix_append s [c]).isInfix)

theorem no_slashes_fst_cutComment (s : List Char) : ¬ ['/', '/'] <:+: (cutComment s).1 := by
  rcases cutComment_cases s with ⟨absent, whole⟩ | ⟨code, comment, _, first, cut⟩
  · rwa [whole]
  · rw [cut]
    exact no_slashes_of_concat first

theorem no_slashes_concat {s : List Char} (absent : ¬ ['/', '/'] <:+: s) {c : Char}
    (other : c ≠ '/') : ¬ ['/', '/'] <:+: s ++ [c] := by
  rw [List.infix_concat_iff, not_or]
  refine ⟨fun ends => ?_, absent⟩
  obtain ⟨front, split⟩ := ends
  have split := (List.append_assoc front ['/'] ['/']).trans split
  obtain ⟨_, same⟩ := List.append_inj' split rfl
  exact other (List.singleton_inj.1 same).symm

/-- A character that is no slash parts a text from a comment behind it. -/
theorem no_slashes_concat_slash {s : List Char} (absent : ¬ ['/', '/'] <:+: s) {c : Char}
    (other : c ≠ '/') : ¬ ['/', '/'] <:+: (s ++ [c]) ++ ['/'] := by
  rw [List.infix_concat_iff, not_or]
  refine ⟨fun ends => ?_, no_slashes_concat absent other⟩
  obtain ⟨front, split⟩ := ends
  have split := (List.append_assoc front ['/'] ['/']).trans split
  obtain ⟨_, same⟩ := List.append_inj' (List.append_inj' split rfl).1 rfl
  exact other (List.singleton_inj.1 same).symm

/-! ## The words of a text -/

/-- A text that consists of the given words, in order, with blanks between them and perhaps before
and behind them. -/
inductive InWords : List Char → List (List Char) → Prop
  | nil : InWords [] []
  | blank {c : Char} {s : List Char} {words : List (List Char)} :
    isBlank c = true → InWords s words → InWords (c :: s) words
  | last {word : List Char} : IsWord word → InWords word [word]
  | word {word : List Char} {c : Char} {s : List Char} {words : List (List Char)} :
    IsWord word → isBlank c = true → InWords s words → InWords (word ++ c :: s) (word :: words)

theorem words_cons_blank {c : Char} (blank : isBlank c = true) (s : List Char) :
    words (c :: s) = words s := by
  rw [words, wordsFrom, if_pos blank]
  rfl

theorem InWords.words_eq {s : List Char} {found : List (List Char)} (inWords : InWords s found) :
    words s = found := by
  induction inWords with
  | nil => rfl
  | blank blank _ ih => rw [words_cons_blank blank, ih]
  | last isWord => exact words_eq_singleton isWord
  | word isWord blank _ ih => rw [words_append_cons isWord blank, ih]

/-- What was read of a word is a part of the text that is still to be put into words. -/
theorem inWords_wordsFrom {read : List Char} (solid : ∀ c ∈ read, isBlank c = false)
    (s : List Char) : InWords (read.reverse ++ s) (wordsFrom read s) := by
  have isWord {read : List Char} (solid : ∀ c ∈ read, isBlank c = false)
      (some : ¬ read.isEmpty = true) : IsWord read.reverse :=
    ⟨by simpa using some, fun c member => solid c (List.mem_reverse.1 member)⟩
  induction s generalizing read with
  | nil =>
    rw [wordsFrom]
    split
    · next none =>
      rw [List.isEmpty_iff.1 none]
      exact .nil
    · next some =>
      rw [List.append_nil]
      exact .last (isWord solid some)
  | cons c rest ih =>
    rw [wordsFrom]
    split
    · next blank =>
      split
      · next none =>
        rw [List.isEmpty_iff.1 none]
        exact .blank blank (@ih [] (by simp))
      · next some => exact .word (isWord solid some) blank (@ih [] (by simp))
    · next letter =>
      have longer := ih (List.forall_mem_cons.2 ⟨by simpa using letter, solid⟩)
      rwa [List.reverse_cons, List.append_assoc, List.singleton_append] at longer

/-- **The search for words finds the words of a text,** and there is only one row of them. -/
theorem words_eq_iff {s : List Char} {found : List (List Char)} :
    words s = found ↔ InWords s found := by
  constructor
  · intro search
    rw [← search]
    exact @inWords_wordsFrom [] (by simp) s
  · exact InWords.words_eq

/-! ## Blanks at the ends -/

/-- A text without words is blank. -/
theorem words_eq_nil_iff {s : List Char} : words s = [] ↔ s.all isBlank = true := by
  rw [words_eq_iff]
  constructor
  · intro none
    generalize row : ([] : List (List Char)) = found at none
    induction none with
    | nil => rfl
    | blank blank _ ih => rw [List.all_cons, blank, ih row, Bool.and_true]
    | last | word => cases row
  · intro blanks
    induction s with
    | nil => exact .nil
    | cons c rest ih =>
      rw [List.all_cons, Bool.and_eq_true] at blanks
      exact .blank blanks.1 (ih blanks.2)

theorem words_dropWhile (s : List Char) : words (s.dropWhile isBlank) = words s := by
  induction s with
  | nil => rfl
  | cons c rest ih =>
    by_cases blank : isBlank c = true
    · rw [List.dropWhile_cons_of_pos blank, ih, words_cons_blank blank]
    · rw [List.dropWhile_cons_of_neg blank]

theorem wordsFrom_concat {c : Char} (blank : isBlank c = true) (read s : List Char) :
    wordsFrom read (s ++ [c]) = wordsFrom read s := by
  induction s generalizing read with
  | nil => simp [wordsFrom, blank]
  | cons d rest ih => simp only [List.cons_append, wordsFrom, ih]

theorem words_reverse_dropWhile (s : List Char) :
    words (s.dropWhile isBlank).reverse = words s.reverse := by
  induction s with
  | nil => rfl
  | cons c rest ih =>
    by_cases blank : isBlank c = true
    · rw [List.dropWhile_cons_of_pos blank, ih, List.reverse_cons, words, words,
        wordsFrom_concat blank]
    · rw [List.dropWhile_cons_of_neg blank]

/-- Blanks at the ends of a text part no words. -/
theorem words_trim (s : List Char) : words (trim s) = words s := by
  rw [trim, words_reverse_dropWhile, List.reverse_reverse, words_dropWhile]

theorem trim_isPrefix (s : List Char) : trim s <+: s.dropWhile isBlank := by
  rw [← List.reverse_suffix, trim, List.reverse_reverse]
  exact List.dropWhile_suffix isBlank

/-- What is left between the blanks at the ends is a part of the text. -/
theorem trim_isInfix (s : List Char) : trim s <:+: s :=
  (trim_isPrefix s).isInfix.trans (List.dropWhile_suffix isBlank).isInfix

theorem trim_cons_blank {c : Char} (blank : isBlank c = true) (s : List Char) :
    trim (c :: s) = trim s := by
  rw [trim, List.dropWhile_cons_of_pos blank, trim]

theorem dropWhile_trim (s : List Char) : (trim s).dropWhile isBlank = trim s := by
  cases letters : trim s with
  | nil => rfl
  | cons c rest =>
    obtain ⟨behind, split⟩ := trim_isPrefix s
    rw [letters, List.cons_append] at split
    have first := List.dropWhile_idempotent isBlank s
    rw [← split] at first
    refine List.dropWhile_cons_of_neg fun blank => ?_
    rw [List.dropWhile_cons_of_pos blank] at first
    have ends : (rest ++ behind).dropWhile isBlank <:+ rest ++ behind :=
      List.dropWhile_suffix isBlank
    have longer := ends.length_le
    rw [first, List.length_cons] at longer
    omega

theorem trim_trim (s : List Char) : trim (trim s) = trim s := by
  have last := List.dropWhile_idempotent isBlank (s.dropWhile isBlank).reverse
  rw [trim, dropWhile_trim, trim, List.reverse_reverse, last]

/-! ## Texts one after the other -/

theorem words_concat_blank {c : Char} (blank : isBlank c = true) (s : List Char) :
    words (s ++ [c]) = words s := wordsFrom_concat blank [] s

theorem InWords.append_cons {s t : List Char} {first second : List (List Char)}
    (front : InWords s first) {c : Char} (blank : isBlank c = true) (back : InWords t second) :
    InWords (s ++ c :: t) (first ++ second) := by
  induction front with
  | nil => exact .blank blank back
  | blank other _ ih => exact .blank other ih
  | last isWord => exact .word isWord blank back
  | word isWord other _ ih =>
    rw [List.append_assoc, List.cons_append]
    exact .word isWord other ih

/-- Two texts have their words one after the other if a blank parts them, at the end of the first or
at the beginning of the second. -/
theorem words_append {s t : List Char}
    (parted : s.getLast?.any isBlank = true ∨ t.head?.any isBlank = true) :
    words (s ++ t) = words s ++ words t := by
  have split (c : Char) (blank : isBlank c = true) (front back : List Char) :
      words (front ++ c :: back) = words front ++ words back :=
    words_eq_iff.2 ((words_eq_iff.1 rfl).append_cons blank (words_eq_iff.1 rfl))
  rcases parted with ends | begins
  · obtain ⟨c, last, blank⟩ := (Option.any_eq_true _ _).1 ends
    obtain ⟨front, rfl⟩ := List.getLast?_eq_some_iff.1 last
    rw [List.append_assoc, List.singleton_append, split c blank, words_concat_blank blank]
  · obtain ⟨c, first, blank⟩ := (Option.any_eq_true _ _).1 begins
    obtain ⟨back, rfl⟩ := List.head?_eq_some_iff.1 first
    rw [split c blank, words_cons_blank blank]

/-! ## Columns -/

theorem toList_padRight (width : Nat) (s : String) :
    (padRight width s).toList = s.toList ++ List.replicate (width - s.length) ' ' := by
  rw [padRight, String.toList_append, String.toList_ofList]

theorem not_mem_padRight {word : String} {c : Char} (absent : c ∉ word.toList)
    (noBlank : c ≠ ' ') (width : Nat) : c ∉ (padRight width word).toList := by
  rw [toList_padRight, List.mem_append, not_or]
  exact ⟨absent, fun blank => noBlank (List.eq_of_mem_replicate blank)⟩

theorem words_replicate_append (n : Nat) (rest : List Char) :
    words (List.replicate n ' ' ++ rest) = words rest := by
  induction n with
  | zero => rfl
  | succ n ih => rw [List.replicate_succ, List.cons_append, words_cons_blank rfl, ih]

theorem words_append_replicate (n : Nat) (s : List Char) :
    words (s ++ List.replicate n ' ') = words s := by
  induction n with
  | zero => rw [List.replicate_zero, List.append_nil]
  | succ n ih => rw [List.replicate_succ', ← List.append_assoc, words_concat_blank rfl, ih]

theorem words_padRight (width : Nat) (s : String) :
    words (padRight width s).toList = words s.toList := by
  rw [toList_padRight, words_append_replicate]

theorem words_padLeft (width : Nat) (s : String) :
    words (padLeft width ' ' s).toList = words s.toList := by
  rw [padLeft, String.toList_append, String.toList_ofList, words_replicate_append]

/-- A column that is wider than its text ends in a blank. -/
theorem words_padRight_append {s : String} {width : Nat} (narrow : s.length < width)
    (rest : List Char) :
    words ((padRight width s).toList ++ rest) = words s.toList ++ words rest := by
  have gap : width - s.length ≠ 0 := Nat.sub_ne_zero_of_lt narrow
  have ends : (padRight width s).toList.getLast?.any isBlank = true := by
    rw [toList_padRight, List.getLast?_append, List.getLast?_replicate, if_neg gap]
    rfl
  rw [words_append (Or.inl ends), words_padRight]

end Hack.Text
