import Hack.Proofs.Text.Numerals
import Hack.Proofs.Text.Splitting
import Hack.VM.Line

/-!
The grammar of source lines.

What a line stands for depends on the words before its comment alone. `Reading` lists what words can
stand for, the errors among them: of several violations it names the one that comes first from left
to right, and a constant that cannot be moved only if there is no other. Reading a line finds exactly
what the grammar says (`line_read_by_grammar`), so every line has one reading and no more.
-/

namespace Hack.VM

open Text

/-! ## The grammar -/

/-- What the words behind a direction stand for. -/
inductive MoveReading (direction : Direction) :
    List String → Except CommandError Command → Prop
  | noSegment : MoveReading direction [] (.error .missingArgument)
  | unknownSegment {word : String} {rest : List String} :
    (∀ segment : Segment, segment.text ≠ word) →
    MoveReading direction (word :: rest) (.error (.unknownSegment word))
  | noIndex {segment : Segment} :
    MoveReading direction [segment.text] (.error .missingArgument)
  | badIndex {segment : Segment} {word : String} {rest : List String} :
    (∀ n, IsNumeral word.toList n → 65535 < n) →
    MoveReading direction (segment.text :: word :: rest) (.error (.badIndex word))
  | extraArgument {segment : Segment} {word extra : String} {rest : List String} {index : Word} :
    IsNumeral word.toList index.toNat →
    MoveReading direction (segment.text :: word :: extra :: rest) (.error (.extraArgument extra))
  | popConstant {word : String} {index : Word} :
    direction = .pop → IsNumeral word.toList index.toNat →
    MoveReading direction [Segment.constant.text, word] (.error .popConstant)
  | constantOutOfRange {word : String} {index : Word} :
    direction = .push → IsNumeral word.toList index.toNat → 32767 < index.toNat →
    MoveReading direction [Segment.constant.text, word] (.error (.constantOutOfRange index))
  | pushConstant {word : String} {index : Word} :
    direction = .push → IsNumeral word.toList index.toNat → index.toNat ≤ 32767 →
    MoveReading direction [Segment.constant.text, word] (.ok (.move .push .constant index))
  | cell {segment : Segment} {word : String} {index : Word} :
    segment ≠ .constant → IsNumeral word.toList index.toNat →
    MoveReading direction [segment.text, word] (.ok (.move direction segment index))

/-- What the words of a line stand for; a line without words has no command. -/
inductive Reading : List String → Except CommandError (Option Command) → Prop
  | blank : Reading [] (.ok none)
  | operator {op : Operator} : Reading [op.text] (.ok (some (.operate op)))
  | extraArgument {op : Operator} {extra : String} {rest : List String} :
    Reading (op.text :: extra :: rest) (.error (.extraArgument extra))
  | move {direction : Direction} {rest : List String} {result : Except CommandError Command} :
    MoveReading direction rest result → Reading (direction.text :: rest) (result.map some)
  | unknownCommand {word : String} {rest : List String} :
    (∀ op : Operator, op.text ≠ word) → (∀ direction : Direction, direction.text ≠ word) →
    Reading (word :: rest) (.error (.unknownCommand word))

/-! ## Words -/

theorem Operator.mem_all (op : Operator) : op ∈ all := by cases op <;> decide

theorem Direction.mem_all (direction : Direction) : direction ∈ all := by
  cases direction <;> decide

theorem Segment.mem_all (segment : Segment) : segment ∈ all := by cases segment <;> decide

theorem Direction.ofText?_operator (direction : Direction) :
    Operator.ofText? direction.text = none := by
  cases direction <;> decide

theorem readIndex?_eq_some_iff {word : String} {index : Word} :
    readIndex? word = some index ↔ IsNumeral word.toList index.toNat := by
  have bound : index.toNat ≤ 65535 := Nat.le_of_lt_succ index.isLt
  rw [readIndex?, Option.map_eq_some_iff]
  constructor
  · intro read
    obtain ⟨n, read, rfl⟩ := read
    rw [readDecimal?_eq_some_iff] at read
    rw [BitVec.toNat_ofNat, Nat.mod_eq_of_lt (Nat.lt_succ_of_le read.2)]
    exact read.1
  · intro numeral
    refine ⟨index.toNat, readDecimal?_eq_some_iff.2 ⟨numeral, bound⟩, ?_⟩
    rw [BitVec.ofNat_toNat, BitVec.setWidth_eq]

theorem readIndex?_eq_none_iff {word : String} :
    readIndex? word = none ↔ ∀ n, IsNumeral word.toList n → 65535 < n := by
  rw [readIndex?, Option.map_eq_none_iff, readDecimal?_eq_none_iff]

/-! ## Commands -/

theorem moveReading_readMove (direction : Direction) (words : List String) :
    MoveReading direction words (Command.readMove direction words) := by
  cases words with
  | nil => exact .noSegment
  | cons segmentWord rest =>
    rw [Command.readMove]
    cases known : Segment.ofText? segmentWord with
    | none => exact .unknownSegment ((find?_text_eq_none_iff Segment.mem_all).1 known)
    | some segment =>
      obtain rfl := text_of_find? known
      cases rest with
      | nil => exact .noIndex
      | cons indexWord rest =>
        dsimp only
        cases read : readIndex? indexWord with
        | none => exact .badIndex (readIndex?_eq_none_iff.1 read)
        | some index =>
          have numeral := readIndex?_eq_some_iff.1 read
          cases rest with
          | cons extra rest => exact .extraArgument numeral
          | nil =>
            dsimp only
            by_cases constant : segment = .constant
            · subst constant
              cases direction with
              | pop => exact .popConstant rfl numeral
              | push =>
                rw [if_neg fun popped => Direction.noConfusion popped.2]
                by_cases large : 32767 < index.toNat
                · rw [if_pos ⟨rfl, large⟩]
                  exact .constantOutOfRange rfl numeral large
                · rw [if_neg fun refused => large refused.2]
                  exact .pushConstant rfl numeral (Nat.le_of_not_lt large)
            · rw [if_neg fun popped => constant popped.1, if_neg fun refused => constant refused.1]
              exact .cell constant numeral

/-- Behind a segment and an index only the constant segment is left to be checked. -/
theorem readMove_pair {direction : Direction} {segment : Segment} {word : String} {index : Word}
    (numeral : IsNumeral word.toList index.toNat) :
    Command.readMove direction [segment.text, word] =
      if segment = .constant ∧ direction = .pop then .error .popConstant
      else if segment = .constant ∧ Word.maxLiteral < index.toNat then
        .error (.constantOutOfRange index)
      else .ok (.move direction segment index) := by
  simp only [Command.readMove, Segment.ofText?_text, readIndex?_eq_some_iff.2 numeral]

theorem MoveReading.readMove_eq {direction : Direction} {words : List String}
    {result : Except CommandError Command} (reading : MoveReading direction words result) :
    Command.readMove direction words = result := by
  cases reading with
  | noSegment => rfl
  | unknownSegment unknown =>
    have unread : Segment.ofText? _ = none := (find?_text_eq_none_iff Segment.mem_all).2 unknown
    rw [Command.readMove, unread]
  | noIndex => rw [Command.readMove, Segment.ofText?_text]
  | badIndex bad =>
    simp only [Command.readMove, Segment.ofText?_text, readIndex?_eq_none_iff.2 bad]
  | extraArgument numeral =>
    simp only [Command.readMove, Segment.ofText?_text, readIndex?_eq_some_iff.2 numeral]
  | popConstant pops numeral => rw [readMove_pair numeral, if_pos ⟨rfl, pops⟩]
  | constantOutOfRange pushes numeral large =>
    subst pushes
    rw [readMove_pair numeral, if_neg fun popped => Direction.noConfusion popped.2,
      if_pos ⟨rfl, large⟩]
  | pushConstant pushes numeral fits =>
    subst pushes
    rw [readMove_pair numeral, if_neg fun popped => Direction.noConfusion popped.2,
      if_neg fun refused => Nat.not_lt_of_le fits refused.2]
  | cell cells numeral =>
    rw [readMove_pair numeral, if_neg fun popped => cells popped.1,
      if_neg fun refused => cells refused.1]

theorem reading_ofWords (word : String) (rest : List String) :
    Reading (word :: rest) ((Command.ofWords (word :: rest)).map some) := by
  rw [Command.ofWords]
  cases known : Operator.ofText? word with
  | some op =>
    obtain rfl := text_of_find? known
    cases rest with
    | nil => exact .operator
    | cons extra rest => exact .extraArgument
  | none =>
    dsimp only
    cases moves : Direction.ofText? word with
    | some direction =>
      obtain rfl := text_of_find? moves
      exact .move (moveReading_readMove direction rest)
    | none =>
      exact .unknownCommand ((find?_text_eq_none_iff Operator.mem_all).1 known)
        ((find?_text_eq_none_iff Direction.mem_all).1 moves)

/-- The words of a line have one reading only. -/
theorem Reading.eq_of_cons {word : String} {rest : List String}
    {result : Except CommandError (Option Command)} (reading : Reading (word :: rest) result) :
    result = (Command.ofWords (word :: rest)).map some := by
  rw [Command.ofWords]
  cases reading with
  | operator | extraArgument => rw [Operator.ofText?_text]; rfl
  | @move direction _ _ moves =>
    simp only [direction.ofText?_operator, Direction.ofText?_text, moves.readMove_eq]
  | unknownCommand noOperator noDirection =>
    have unread : Operator.ofText? word = none :=
      (find?_text_eq_none_iff Operator.mem_all).2 noOperator
    have unmoved : Direction.ofText? word = none :=
      (find?_text_eq_none_iff Direction.mem_all).2 noDirection
    rw [unread, unmoved]
    rfl

theorem Reading.eq_of_nil {result : Except CommandError (Option Command)}
    (reading : Reading [] result) : result = .ok none := by
  cases reading
  rfl

/-! ## Lines -/

namespace Line

/-- The words of a line before its comment. -/
def words (line : Line) : List String :=
  (Text.words (Text.cutComment line.raw.toList).1).map String.ofList

/-- The words of a line are those that blanks part before the first `//`. -/
theorem words_eq_iff {line : Line} {row : List String} :
    line.words = row ↔
      ∃ code, BeforeComment line.raw.toList code ∧ InWords code (row.map String.toList) := by
  have same : line.words = row ↔
      Text.words (Text.cutComment line.raw.toList).1 = row.map String.toList := by
    rw [words]
    constructor
    · intro found
      simp [← found, Function.comp_def]
    · intro found
      simp [found, Function.comp_def]
  rw [same, Text.words_eq_iff]
  constructor
  · intro inWords
    exact ⟨_, beforeComment_cutComment _, inWords⟩
  · intro found
    obtain ⟨code, before, inWords⟩ := found
    rwa [before.fst_cutComment]

/-- Blanks at the ends of the code of a line part no words. -/
theorem map_words_code (line : Line) : (Text.words line.code.toList).map String.ofList = line.words := by
  rw [code, String.toList_ofList, words_trim, words]

theorem isEmpty_code_iff {line : Line} : line.code.isEmpty = true ↔ line.words = [] := by
  rw [String.isEmpty_iff, code, String.ofList_eq_empty_iff, trim_eq_nil_iff, words,
    List.map_eq_nil_iff, words_eq_nil_iff]

theorem command_eq (line : Line) :
    line.command =
      if line.words = [] then .ok none else (Command.ofWords line.words).map some := by
  simp only [command, isEmpty_code_iff, Command.ofText, map_words_code]
  split
  · rfl
  · cases Command.ofWords line.words <;> rfl

/-- A line is read as its words stand for, and as nothing else. -/
theorem command_eq_iff {line : Line} {result : Except CommandError (Option Command)} :
    line.command = result ↔ Reading line.words result := by
  rw [command_eq]
  cases row : line.words with
  | nil =>
    constructor
    · intro same
      subst same
      exact .blank
    · exact fun reading => reading.eq_of_nil.symm
  | cons word rest =>
    rw [if_neg (List.cons_ne_nil word rest)]
    constructor
    · intro same
      subst same
      exact reading_ofWords word rest
    · exact fun reading => reading.eq_of_cons.symm

end Line

/-- **A line is read exactly by its grammar.** What is read, be it a command, an error or nothing, is
the one thing for which the words before its first `//` stand. The words that the grammar knows are
listed here with what they stand for, and a numeral is any text of digits, which has its decimal
value. -/
theorem line_read_by_grammar (line : Line) :
    (∀ result, line.command = result ↔
      ∃ code row, BeforeComment line.raw.toList code ∧ InWords code (row.map String.toList) ∧
        Reading row result) ∧
    (∀ word (op : Operator), op.text = word ↔
      (word, op) ∈ [("add", .add), ("sub", .sub), ("neg", .neg), ("eq", .eq), ("gt", .gt),
        ("lt", .lt), ("and", .and), ("or", .or), ("not", .not)]) ∧
    (∀ word (direction : Direction), direction.text = word ↔
      (word, direction) ∈ [("push", .push), ("pop", .pop)]) ∧
    (∀ word (segment : Segment), segment.text = word ↔
      (word, segment) ∈ [("constant", .constant), ("local", .locals), ("argument", .arguments),
        ("this", .this), ("that", .that), ("temp", .temp), ("pointer", .pointer),
        ("static", .statics)]) ∧
    (∀ s, (∃ n, IsNumeral s n) ↔ s ≠ [] ∧ ∀ c ∈ s, c.isDigit = true) ∧
    (∀ s n, IsNumeral s n → decimalValue s = n) := by
  refine ⟨fun result => ?_, fun word op => text_eq_iff Operator.mem_all,
    fun word direction => text_eq_iff Direction.mem_all,
    fun word segment => text_eq_iff Segment.mem_all, fun s => exists_isNumeral_iff,
    fun s n numeral => numeral.decimalValue_eq⟩
  rw [Line.command_eq_iff]
  constructor
  · intro reading
    obtain ⟨code, before, inWords⟩ := Line.words_eq_iff.1 (Eq.refl line.words)
    exact ⟨code, line.words, before, inWords, reading⟩
  · intro found
    obtain ⟨code, row, before, inWords, reading⟩ := found
    rwa [Line.words_eq_iff.2 ⟨code, before, inWords⟩]

/-- A line that is wrong in several ways has the error of its first fault. -/
example : (Line.mk 0 " push local 65536 extra // no").command = .error (.badIndex "65536") := by
  decide +kernel

end Hack.VM
