import Hack.Text.Lines

/-!
Lines that were put together to a text, each ended by a line feed, are the lines of that text.

Not every list of lines can be told from its text in that way, because a carriage return at the end
of a line is taken for a part of its ending. If each line is ended by a carriage return and a line
feed, that one is taken and the line is kept (`lines_joinLines`).
-/

namespace Hack.Text

/-- A text that is one line: no line feed stands in it and no carriage return at its end. -/
structure IsLine (line : List Char) : Prop where
  unbroken : '\n' ∉ line
  ending : line.getLast? ≠ some '\r'

theorem closeLine_reverse {line : List Char} (isLine : IsLine line) :
    closeLine line.reverse = String.ofList line := by
  unfold closeLine
  split
  · next shorter ends =>
    have last : line.getLast? = some '\r' := by
      rw [← List.head?_reverse, ends]
      rfl
    exact absurd last isLine.ending
  · rw [List.reverse_reverse]

/-- A line feed ends the line before it. -/
theorem linesFrom_append {line : List Char} (unbroken : '\n' ∉ line) (read rest : List Char) :
    linesFrom read (line ++ '\n' :: rest) =
      closeLine (line.reverse ++ read) :: linesFrom [] rest := by
  induction line generalizing read with
  | nil => rfl
  | cons c line ih =>
    have differ : c ≠ '\n' := (List.ne_of_not_mem_cons unbroken).symm
    rw [List.cons_append, linesFrom, ih (List.not_mem_of_not_mem_cons unbroken), List.reverse_cons,
      List.append_assoc]
    · rfl
    · exact differ

theorem linesFrom_flatMap {lines : List String} (areLines : ∀ line ∈ lines, IsLine line.toList) :
    linesFrom [] (lines.flatMap fun line => line.toList ++ ['\n']) = lines := by
  induction lines with
  | nil => rfl
  | cons line lines ih =>
    have isLine := areLines line List.mem_cons_self
    rw [List.flatMap_cons, List.append_assoc, List.singleton_append,
      linesFrom_append isLine.unbroken, List.append_nil, closeLine_reverse isLine,
      String.ofList_toList, ih fun other member => areLines other (.tail _ member)]

/-! ## Any lines -/

/-- Lines as one text, each with an ending. -/
def joinLines (ending : String) (lines : List String) : String :=
  String.ofList (lines.flatMap fun line => line.toList ++ ending.toList)

theorem not_mem_closeLine {line : List Char} (unbroken : '\n' ∉ line) :
    '\n' ∉ (closeLine line).toList := by
  unfold closeLine
  split
  · rw [String.toList_ofList, List.mem_reverse]
    exact List.not_mem_of_not_mem_cons unbroken
  · rw [String.toList_ofList, List.mem_reverse]
    exact unbroken

theorem not_mem_of_mem_linesFrom {rest : List Char} {read : List Char} (unbroken : '\n' ∉ read)
    {line : String} (member : line ∈ linesFrom read rest) : '\n' ∉ line.toList := by
  induction rest generalizing read with
  | nil =>
    rw [linesFrom] at member
    split at member
    · cases member
    · rw [List.mem_singleton.1 member, String.toList_ofList, List.mem_reverse]
      exact unbroken
  | cons c rest ih =>
    by_cases feed : c = '\n'
    · rw [feed, linesFrom] at member
      rcases List.mem_cons.1 member with closed | later
      · rw [closed]
        exact not_mem_closeLine unbroken
      · exact ih List.not_mem_nil later
    · rw [linesFrom.eq_3 _ _ _ feed] at member
      exact ih (List.not_mem_cons_of_ne_of_not_mem (Ne.symm feed) unbroken) member

/-- No line of a text has a line feed. -/
theorem not_mem_of_mem_lines {s line : String} (member : line ∈ lines s) : '\n' ∉ line.toList :=
  not_mem_of_mem_linesFrom List.not_mem_nil member

theorem lines_joinLines {lines : List String} (unbroken : ∀ line ∈ lines, '\n' ∉ line.toList) :
    Text.lines (joinLines "\r\n" lines) = lines := by
  rw [Text.lines, joinLines, String.toList_ofList]
  induction lines with
  | nil => rfl
  | cons line lines ih =>
    have unbrokenLine : '\n' ∉ line.toList ++ ['\r'] := by
      simp [unbroken line List.mem_cons_self]
    have split : line.toList ++ "\r\n".toList = (line.toList ++ ['\r']) ++ ['\n'] := by simp
    have closed : closeLine ((line.toList ++ ['\r']).reverse ++ []) = line := by
      simp [closeLine]
    rw [List.flatMap_cons, split, List.append_assoc, List.singleton_append,
      linesFrom_append unbrokenLine, closed, ih fun other member => unbroken other (.tail _ member)]

end Hack.Text
