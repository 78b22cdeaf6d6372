import Hack.Proofs.Text.Escapes
import Hack.Proofs.VM.Commands

/-!
Statements and commands in colours.

A statement in colours is its text with escape sequences put in, and nothing else
(`Statement.withoutEscapes_render`). A command in colours is set in columns, so its characters are
not those of its text; but each column is wider than any word in it, so they part into the same
words (`Command.words_styled`) and are read as the same command. `colours_only_added` says both.
-/

namespace Hack.Assembly.Statement

open Text

/-! ## Statements -/

/-- The strings in a statement, which may be any: the name of a symbol or a label, or a comment. -/
def strings : Statement → List String
  | .load (.value _) | .compute .. => []
  | .load (.symbol name) | .label name => [name]
  | .comment text => [text]

theorem escape_not_mem_compute (dest : Dest) (comp : Comp) (jump : Jump) :
    '\x1b' ∉ (compute dest comp jump).text.toList := by
  have places : ∀ dest ∈ Dest.all, '\x1b' ∉ dest.text.toList ++ ['='] := by decide
  have fields : ∀ comp ∈ Comp.all, '\x1b' ∉ comp.text.toList := by decide
  have branches : ∀ jump ∈ Jump.all, '\x1b' ∉ ';' :: jump.text.toList := by decide
  intro member
  -- the first and the last field are written with their mark or not at all
  rw [text, String.toList_append, String.toList_append, List.mem_append, List.mem_append] at member
  rcases member with (inDest | inComp) | inJump
  · split at inDest
    · cases inDest
    · rw [String.toList_append] at inDest
      exact places dest dest.mem_all inDest
  · exact fields comp comp.mem_all inComp
  · split at inJump
    · cases inJump
    · rw [String.toList_append] at inJump
      exact branches jump jump.mem_all inJump

/-- An escape character in the text of a statement comes from a string in the statement. -/
theorem escape_not_mem_text {statement : Statement}
    (free : ∀ s ∈ statement.strings, '\x1b' ∉ s.toList) : '\x1b' ∉ statement.text.toList := by
  cases statement with
  | load operand =>
    rw [text, String.toList_append, List.mem_append, not_or]
    refine ⟨by decide, ?_⟩
    cases operand with
    | value n =>
      rw [Operand.text, Nat.toString_eq_repr, Nat.toList_repr]
      exact VM.not_mem_toDigits (by decide) n.toNat
    | symbol name => exact free name List.mem_cons_self
  | compute dest comp jump => exact escape_not_mem_compute dest comp jump
  | label name =>
    have inside : '\x1b' ∉ name.toList := free name List.mem_cons_self
    simp [text, inside]
  | comment words =>
    have inside : '\x1b' ∉ words.toList := free words List.mem_cons_self
    simp [text, inside]

/-- A statement whose text is read back has names only, in which no escape character stands. -/
theorem escape_not_mem_of_isWellFormed {statement : Statement}
    (wellFormed : statement.isWellFormed = true) : ∀ s ∈ statement.strings, '\x1b' ∉ s.toList := by
  have inSymbol {name : String} (symbol : isSymbol name = true) : '\x1b' ∉ name.toList :=
    fun member => absurd (List.all_eq_true.1 (all_of_isSymbolChars symbol) _ member) (by decide)
  intro s member
  cases statement with
  | load operand =>
    cases operand with
    | value n => cases member
    | symbol name =>
      rw [List.mem_singleton.1 member]
      exact inSymbol wellFormed
  | compute dest comp jump => cases member
  | label name =>
    rw [List.mem_singleton.1 member]
    exact inSymbol wellFormed
  | comment words => cases wellFormed

/-- **A statement in colours is its text with escape sequences put in.** -/
theorem withoutEscapes_render {statement : Statement}
    (free : ∀ s ∈ statement.strings, '\x1b' ∉ s.toList) :
    WithoutEscapes statement.styled.render.toList statement.text.toList := by
  have absent := escape_not_mem_text free
  rw [← plain_styled] at absent ⊢
  exact Text.withoutEscapes_render absent

end Hack.Assembly.Statement

namespace Hack.VM

open Assembly Text

/-! ## Commands -/

theorem Operator.length_text_lt (op : Operator) : op.text.length < 5 := by cases op <;> decide

theorem Direction.length_text_lt (direction : Direction) : direction.text.length < 5 := by
  cases direction <;> decide

theorem Segment.length_text_lt (segment : Segment) : segment.text.length < 9 := by
  cases segment <;> decide

namespace Command

theorem plain_styled_operate (op : Operator) :
    (operate op).styled.plain.toList = (padRight 5 op.text).toList ++ [] := by
  simp [styled, Styled.coloured, Styled.plain]

theorem plain_styled_move (direction : Direction) (segment : Segment) (index : Word) :
    (move direction segment index).styled.plain.toList =
      (padRight 5 direction.text).toList ++
        ((padRight 9 segment.text).toList ++ Nat.toDigits 10 index.toNat) := by
  simp [styled, Styled.coloured, Styled.plain]

/-- The columns have the words of the command. -/
theorem words_styled (command : Command) :
    (Text.words command.styled.plain.toList).map String.ofList = command.fields := by
  cases command with
  | operate op =>
    rw [plain_styled_operate, words_padRight_append op.length_text_lt,
      words_eq_singleton op.isWord_text]
    simp [fields, Text.words, wordsFrom]
  | move direction segment index =>
    rw [plain_styled_move, words_padRight_append direction.length_text_lt,
      words_padRight_append segment.length_text_lt, words_eq_singleton direction.isWord_text,
      words_eq_singleton segment.isWord_text, words_eq_singleton (isWord_toDigits _)]
    simp [fields, Nat.repr]

/-- The columns have no character that the text of the command cannot have. -/
theorem not_mem_plain (command : Command) {c : Char} (noBlank : c ≠ ' ')
    (noLetter : isSymbolChar c = false) : c ∉ command.styled.plain.toList := by
  have absent : c ∉ command.text.toList := command.not_mem_text noBlank noLetter
  cases command with
  | operate op =>
    rw [plain_styled_operate, List.append_nil]
    exact not_mem_padRight absent noBlank 5
  | move direction segment index =>
    simp only [toList_text_move, List.mem_append, List.mem_cons, not_or] at absent
    obtain ⟨inDirection, _, inSegment, _, inIndex⟩ := absent
    simp only [plain_styled_move, List.mem_append, not_or]
    exact ⟨not_mem_padRight inDirection noBlank 5, not_mem_padRight inSegment noBlank 9, inIndex⟩

theorem withoutEscapes_render (command : Command) :
    WithoutEscapes command.styled.render.toList command.styled.plain.toList :=
  Text.withoutEscapes_render (command.not_mem_plain (by decide) (by decide))

/-- **A command in colours is read as its text is,** without the colours. -/
theorem ofText_unstyled (command : Command) :
    ofText (unstyled command.styled.render) = ofText command.text := by
  rw [command.withoutEscapes_render.unstyled_eq, ofText, ofText, words_styled, words_text]

/-- A command that was read is not refused. -/
theorem refusal?_of_ofText {s : String} {command : Command} (read : ofText s = .ok command) :
    command.refusal? = none := by
  rcases ofWords_cases ((Text.words s.toList).map String.ofList) with
    ⟨other, accepted, allowed⟩ | ⟨error, failed, _⟩
  · rw [ofText, accepted] at read
    cases read
    exact allowed
  · rw [ofText, failed] at read
    cases read

end Command

/-! ## Statements and commands -/

/-- **Colours add nothing but escape sequences.** Without these a statement in colours is its text,
if no name or comment in it has an escape character, and a command in colours is read as the same
command, if that can be read at all. -/
theorem colours_only_added :
    (∀ statement : Statement, (∀ s ∈ statement.strings, '\x1b' ∉ s.toList) →
      WithoutEscapes statement.styled.render.toList statement.text.toList ∧
        unstyled statement.styled.render = statement.text) ∧
    (∀ (s : String) (command : Command), Command.ofText s = .ok command →
      WithoutEscapes command.styled.render.toList (unstyled command.styled.render).toList ∧
        Command.ofText (unstyled command.styled.render) = .ok command) := by
  constructor
  · intro statement free
    have without := Statement.withoutEscapes_render free
    exact ⟨without, without.unstyled_eq⟩
  · intro s command read
    have without := command.withoutEscapes_render
    rw [Command.ofText_unstyled, Command.ofText_text, Command.refusal?_of_ofText read,
      without.unstyled_eq]
    exact ⟨without, rfl⟩

/-- The longest segment still has a blank behind it, and a name may look like the rest of a
sequence. -/
theorem colours_only_added_argument :
    (∀ s ∈ (Statement.label "[31m").strings, '\x1b' ∉ s.toList) ∧
    unstyled (Statement.label "[31m").styled.render = "([31m)" ∧
    Command.ofText "push argument 007" = .ok (.move .push .arguments 7) ∧
    Command.ofText (unstyled (Command.move .push .arguments 7).styled.render) =
      .ok (.move .push .arguments 7) := by
  have free : ∀ s ∈ (Statement.label "[31m").strings, '\x1b' ∉ s.toList := by decide
  have read : Command.ofText "push argument 007" = .ok (.move .push .arguments 7) := by
    decide +kernel
  exact ⟨free, (colours_only_added.1 _ free).2, read, (colours_only_added.2 _ _ read).2⟩

/-- A sequence that stands in a name is lost with the colours. -/
example : unstyled (Statement.label "\x1b[31mA").styled.render = "(A)" := by decide +kernel

end Hack.VM
