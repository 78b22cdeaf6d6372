import Hack.Text.Style

/-!
What is left of a written text without its escape sequences.

`WithoutEscapes` relates a text to what is left of it and does not say how the sequences are found:
each has a numeric code, and no escape character stands anywhere else. When the sequences of such a
text are dropped, exactly this is left (`WithoutEscapes.dropEscapes_eq`). The written form of a
styled text is one, and its characters are left of it, unless there is an escape character among
them (`withoutEscapes_render`).
-/

namespace Hack.Text

/-- What is left of a text without its escape sequences. A sequence is an escape character, a
bracket, the digits of a code and an `m`; every escape character of the text begins one. -/
inductive WithoutEscapes : List Char → List Char → Prop
  | nil : WithoutEscapes [] []
  | char {c : Char} {written left : List Char} :
    c ≠ '\x1b' → WithoutEscapes written left → WithoutEscapes (c :: written) (c :: left)
  | sequence {code written left : List Char} :
    (∀ c ∈ code, c.isDigit = true) → WithoutEscapes written left →
    WithoutEscapes ('\x1b' :: '[' :: (code ++ 'm' :: written)) left

/-- A written text without its escape sequences. -/
def unstyled (s : String) : String := String.ofList (dropEscapes s.toList)

/-! ## Dropping the sequences -/

theorem afterCodes_append {code : List Char} (absent : 'm' ∉ code) (rest : List Char) :
    afterCodes (code ++ 'm' :: rest) = rest := by
  induction code with
  | nil => rfl
  | cons c code ih =>
    have differ : c ≠ 'm' := (List.ne_of_not_mem_cons absent).symm
    rw [List.cons_append, afterCodes.eq_3 _ _ differ]
    exact ih (List.not_mem_of_not_mem_cons absent)

theorem dropEscapes_cons {c : Char} (other : c ≠ '\x1b') (rest : List Char) :
    dropEscapes (c :: rest) = c :: dropEscapes rest := by
  rw [dropEscapes.eq_3]
  intro _ escape
  exact absurd escape other

/-- What stands in front of a text is left without its own sequences. -/
theorem WithoutEscapes.dropEscapes_append {written left : List Char}
    (without : WithoutEscapes written left) (rest : List Char) :
    dropEscapes (written ++ rest) = left ++ dropEscapes rest := by
  induction without with
  | nil => rfl
  | char other _ ih => rw [List.cons_append, dropEscapes_cons other, ih, List.cons_append]
  | @sequence code written left digits _ ih =>
    have absent : 'm' ∉ code := fun member => absurd (digits 'm' member) (by decide)
    rw [List.cons_append, List.cons_append, List.append_assoc, List.cons_append, dropEscapes,
      afterCodes_append absent, ih]

/-- Dropping the sequences leaves what is left without them. -/
theorem WithoutEscapes.dropEscapes_eq {written left : List Char}
    (without : WithoutEscapes written left) : dropEscapes written = left := by
  have alone := without.dropEscapes_append []
  rwa [dropEscapes, List.append_nil, List.append_nil] at alone

theorem WithoutEscapes.unstyled_eq {written left : String}
    (without : WithoutEscapes written.toList left.toList) : unstyled written = left := by
  rw [unstyled, without.dropEscapes_eq, String.ofList_toList]

/-! ## Putting texts together -/

theorem WithoutEscapes.append {written left written' left' : List Char}
    (front : WithoutEscapes written left) (back : WithoutEscapes written' left') :
    WithoutEscapes (written ++ written') (left ++ left') := by
  induction front with
  | nil => exact back
  | char other _ ih => exact .char other ih
  | sequence digits _ ih =>
    rw [List.cons_append, List.cons_append, List.append_assoc]
    exact .sequence digits ih

/-- Nothing is taken out of a text without escape characters. -/
theorem withoutEscapes_of_not_mem {s : List Char} (absent : '\x1b' ∉ s) : WithoutEscapes s s := by
  induction s with
  | nil => exact .nil
  | cons c rest ih =>
    have other : c ≠ '\x1b' := (List.ne_of_not_mem_cons absent).symm
    exact .char other (ih (List.not_mem_of_not_mem_cons absent))

theorem withoutEscapes_escape {code : String} (digits : code.toList.all Char.isDigit = true) :
    WithoutEscapes (escape code).toList [] := by
  rw [escape, String.toList_append, String.toList_append, List.append_assoc]
  exact .sequence (List.all_eq_true.1 digits) .nil

/-! ## Styles -/

theorem withoutEscapes_colourCode (colour : Option Colour) :
    WithoutEscapes (colourCode colour).toList [] := by
  cases colour with
  | none => exact withoutEscapes_escape (by decide)
  | some colour => cases colour <;> exact withoutEscapes_escape (by decide)

theorem withoutEscapes_weightCode (weight : Weight) :
    WithoutEscapes (weightCode weight).toList [] := by
  cases weight <;> exact withoutEscapes_escape (by decide)

theorem withoutEscapes_underlineCode (underlined : Bool) :
    WithoutEscapes (underlineCode underlined).toList [] := by
  cases underlined <;> exact withoutEscapes_escape (by decide)

/-- What stays as it is needs no sequence. -/
theorem withoutEscapes_ite (kept : Prop) [Decidable kept] {codes : String}
    (without : WithoutEscapes codes.toList []) :
    WithoutEscapes (if kept then "" else codes).toList [] := by
  split
  · exact .nil
  · exact without

/-- A change of style adds sequences and nothing else. -/
theorem withoutEscapes_change (old new : Style) : WithoutEscapes (old.change new).toList [] := by
  rw [Style.change, String.toList_append, String.toList_append]
  have colour :=
    withoutEscapes_ite (old.colour = new.colour) (withoutEscapes_colourCode new.colour)
  have weight :=
    withoutEscapes_ite (old.weight = new.weight) (withoutEscapes_weightCode new.weight)
  have line :=
    withoutEscapes_ite (old.underlined = new.underlined)
      (withoutEscapes_underlineCode new.underlined)
  exact (colour.append weight).append line

theorem withoutEscapes_renderFrom (current : Style) {t : Styled}
    (absent : '\x1b' ∉ t.plain.toList) :
    WithoutEscapes (Styled.renderFrom current t).toList t.plain.toList := by
  -- every span is reached in the style of the span before it
  induction t generalizing current with
  | nil => exact withoutEscapes_change current {}
  | cons span rest ih =>
    have plain : (Styled.plain (span :: rest)).toList =
        span.text.toList ++ (Styled.plain rest).toList := String.toList_append
    rw [plain] at absent ⊢
    rw [List.mem_append, not_or] at absent
    rw [Styled.renderFrom, String.toList_append, String.toList_append]
    have change := withoutEscapes_change current span.style
    have text := withoutEscapes_of_not_mem absent.1
    exact (change.append text).append (ih span.style absent.2)

/-- **The written form of a styled text is its characters with escape sequences put in.** -/
theorem withoutEscapes_render {t : Styled} (absent : '\x1b' ∉ t.plain.toList) :
    WithoutEscapes t.render.toList t.plain.toList :=
  withoutEscapes_renderFrom {} absent

end Hack.Text
