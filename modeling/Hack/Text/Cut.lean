/-!
Cutting a text in two at the first place where a mark stands. The mark itself belongs to neither
part.
-/

namespace Hack.Text

/-- The parts before and after the first `mark`, if it occurs. -/
def cutAt? (mark : Char) : List Char → Option (List Char × List Char)
  | [] => none
  | c :: rest =>
    if c = mark then some ([], rest)
    else (cutAt? mark rest).map fun (before, after) => (c :: before, after)

/-- The parts before and after the first `//`; the second is absent if there is none. -/
def cutComment : List Char → List Char × Option (List Char)
  | '/' :: '/' :: rest => ([], some rest)
  | [] => ([], none)
  | c :: rest => let (before, after) := cutComment rest; (c :: before, after)

/-- A cut finds the first mark: none stands before it, and nothing else is lost. -/
theorem cutAt?_eq_some {mark : Char} {s before after : List Char}
    (h : cutAt? mark s = some (before, after)) : s = before ++ mark :: after ∧ mark ∉ before := by
  induction s generalizing before with
  | nil => simp [cutAt?] at h
  | cons c rest ih =>
    by_cases hc : c = mark
    · simp [cutAt?, hc] at h
      obtain ⟨rfl, rfl⟩ := h
      simp [hc]
    · simp only [cutAt?, hc, if_false, Option.map_eq_some_iff, Prod.exists, Prod.mk.injEq] at h
      obtain ⟨front, back, hcut, rfl, rfl⟩ := h
      obtain ⟨rfl, absent⟩ := ih hcut
      exact ⟨rfl, by simp [absent, Ne.symm hc]⟩

/-- A text is left whole exactly if the mark does not occur in it. -/
theorem cutAt?_eq_none_iff {mark : Char} {s : List Char} : cutAt? mark s = none ↔ mark ∉ s := by
  induction s with
  | nil => simp [cutAt?]
  | cons c rest ih =>
    by_cases hc : c = mark
    · simp [cutAt?, hc]
    · simp [cutAt?, hc, ih, Ne.symm hc]

theorem cutAt?_append {mark : Char} {before : List Char} (absent : mark ∉ before)
    (after : List Char) : cutAt? mark (before ++ mark :: after) = some (before, after) := by
  induction before with
  | nil => exact if_pos rfl
  | cons c before ih =>
    have differ : c ≠ mark := (List.ne_of_not_mem_cons absent).symm
    rw [List.cons_append, cutAt?, if_neg differ, ih (List.not_mem_of_not_mem_cons absent)]
    rfl

/-- A text without a slash has no comment. -/
theorem cutComment_of_not_mem {s : List Char} (absent : '/' ∉ s) : cutComment s = (s, none) := by
  induction s with
  | nil => rfl
  | cons c rest ih =>
    have differ : c ≠ '/' := (List.ne_of_not_mem_cons absent).symm
    rw [cutComment, ih (List.not_mem_of_not_mem_cons absent)]
    rintro _ rfl
    exact absurd rfl differ

end Hack.Text
