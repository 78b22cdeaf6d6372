import Hack.Proofs.VM.Grammar
import Hack.Proofs.VM.Rendering

/-!
Which commands are refused, and where.

The text of a command is read back, unless it moves something to or from the constant segment that
cannot be moved (`Command.ofText_text`); for such a command the compiler has the same error. Besides
those the compiler refuses the commands with an index so high that no load instruction can hold it
(`Compiler.command_eq_error_iff`), and nothing else: the name of a source unit is always known.
-/

namespace Hack.VM

open Assembly

/-- The highest index of a segment for which a load instruction can hold the address, or the
distance from the base, that the index stands for. -/
def Segment.lastIndex? : Segment → Option Nat
  | .locals | .arguments | .this | .that => some 32767
  | .temp => some 32762
  | .pointer => some 32764
  | .constant | .statics => none

namespace Command

/-- Why a command is refused by its reader, although all of its words are right. -/
def refusal? : Command → Option CommandError
  | .operate _ => none
  | .move direction segment index =>
    if segment = .constant ∧ direction = .pop then some .popConstant
    else if segment = .constant ∧ Word.maxLiteral < index.toNat then
      some (.constantOutOfRange index)
    else none

/-- The error of a command with an index that is too high for its segment. -/
def overrun? : Command → Option CommandError
  | .operate _ => none
  | .move _ segment index =>
    match segment.lastIndex? with
    | some last => if last < index.toNat then some (.indexOutOfRange index) else none
    | none => none

/-- Why a command has no code in a source unit. -/
def fault? (command : Command) : Option CommandError := command.refusal?.or command.overrun?

/-- A move with an index above the last one of its segment. -/
def Overruns (command : Command) (index : Word) : Prop :=
  ∃ direction segment last, command = .move direction segment index ∧
    segment.lastIndex? = some last ∧ last < index.toNat

/-! ## Reading the text of a command -/

/-- The words of a command. -/
def fields : Command → List String
  | .operate op => [op.text]
  | .move direction segment index => [direction.text, segment.text, toString index.toNat]

end Command

theorem isWord_of_isSymbol {word : String} (symbol : isSymbol word = true) :
    Text.IsWord word.toList := by
  refine isWord_of_isCode ?_ (isCode_of_isSymbol symbol)
  intro empty
  rw [isSymbol, empty] at symbol
  cases symbol

theorem isWord_toDigits (n : Nat) : Text.IsWord (Nat.toDigits 10 n) :=
  isWord_of_isCode Nat.toDigits_ne_nil (isCode_of_symbolChars (all_isSymbolChar_toDigits n))

theorem Operator.isWord_text (op : Operator) : Text.IsWord op.text.toList := by
  apply isWord_of_isSymbol
  cases op <;> decide

theorem Direction.isWord_text (direction : Direction) : Text.IsWord direction.text.toList := by
  apply isWord_of_isSymbol
  cases direction <;> decide

theorem Segment.isWord_text (segment : Segment) : Text.IsWord segment.text.toList := by
  apply isWord_of_isSymbol
  cases segment <;> decide

namespace Command

theorem toList_text_move (direction : Direction) (segment : Segment) (index : Word) :
    (move direction segment index).text.toList =
      direction.text.toList ++ ' ' :: (segment.text.toList ++ ' ' :: Nat.toDigits 10 index.toNat) := by
  simp [text]

theorem words_text (command : Command) :
    (Text.words command.text.toList).map String.ofList = command.fields := by
  cases command with
  | operate op =>
    rw [text, Text.words_eq_singleton op.isWord_text, List.map_singleton, String.ofList_toList, fields]
  | move direction segment index =>
    rw [toList_text_move, Text.words_append_cons direction.isWord_text rfl,
      Text.words_append_cons segment.isWord_text rfl, Text.words_eq_singleton (isWord_toDigits _)]
    simp [fields, Nat.repr]

end Command

theorem isNumeral_toString (n : Nat) : Text.IsNumeral (toString n).toList n := by
  rw [Nat.toString_eq_repr, Nat.toList_repr]
  exact ⟨0, rfl⟩

namespace Command

theorem ofWords_fields (command : Command) :
    ofWords command.fields = command.refusal?.elim (.ok command) .error := by
  cases command with
  | operate op =>
    rw [fields, ofWords, Operator.ofText?_text]
    rfl
  | move direction segment index =>
    rw [fields, ofWords, direction.ofText?_operator, Direction.ofText?_text]
    dsimp only
    rw [readMove_pair (isNumeral_toString index.toNat), refusal?]
    -- both sides check for a pop first, and for a constant that is too large after it
    split
    · rfl
    · split <;> rfl

/-- **The text of a command is read as that command,** unless the reader refuses it. -/
theorem ofText_text (command : Command) :
    ofText command.text = command.refusal?.elim (.ok command) .error := by
  rw [ofText, words_text, ofWords_fields]

end Command

theorem Command.refusal?_of_ofText_text {command : Command} {error : CommandError}
    (failed : ofText command.text = .error error) : command.refusal? = some error := by
  rw [ofText_text] at failed
  cases refused : command.refusal? with
  | none =>
    rw [refused] at failed
    cases failed
  | some other =>
    rw [refused] at failed
    cases failed
    rfl

theorem Command.of_ofText_text {command read : Command}
    (accepted : ofText command.text = .ok read) : read = command ∧ command.refusal? = none := by
  rw [ofText_text] at accepted
  cases refused : command.refusal? with
  | none =>
    rw [refused] at accepted
    cases accepted
    exact ⟨rfl, rfl⟩
  | some error =>
    rw [refused] at accepted
    cases accepted

theorem Command.refusal?_cases {command : Command} {error : CommandError}
    (refused : command.refusal? = some error) :
    error = .popConstant ∨ ∃ direction segment index,
      command = .move direction segment index ∧ error = .constantOutOfRange index := by
  cases command with
  | operate op => cases refused
  | move direction segment index =>
    rw [refusal?] at refused
    split at refused
    · cases refused
      exact Or.inl rfl
    · split at refused
      · cases refused
        exact Or.inr ⟨direction, segment, index, rfl, rfl⟩
      · cases refused

/-- Whether an error can come from the reader of commands. -/
def CommandError.isOfReader : CommandError → Bool
  | .missingUnitName | .indexOutOfRange _ => false
  | .unknownCommand _ | .unknownSegment _ | .missingArgument | .extraArgument _ | .badIndex _
  | .popConstant | .constantOutOfRange _ => true

theorem Command.readMove_cases (direction : Direction) (words : List String) :
    (∃ command, readMove direction words = .ok command ∧ command.refusal? = none) ∨
      ∃ error, readMove direction words = .error error ∧ error.isOfReader = true := by
  have reading := moveReading_readMove direction words
  generalize readMove direction words = result at reading ⊢
  cases reading with
  | noSegment | unknownSegment | noIndex | badIndex | extraArgument | popConstant
  | constantOutOfRange => exact Or.inr ⟨_, rfl, rfl⟩
  | pushConstant _ _ fits =>
    refine Or.inl ⟨_, rfl, ?_⟩
    rw [refusal?, if_neg fun popped => Direction.noConfusion popped.2,
      if_neg fun large => Nat.not_lt_of_le fits large.2]
  | cell cells =>
    refine Or.inl ⟨_, rfl, ?_⟩
    rw [refusal?, if_neg fun popped => cells popped.1, if_neg fun large => cells large.1]

/-- A command that was read is not refused, and the reader never has an error of the compiler. -/
theorem Command.ofWords_cases (words : List String) :
    (∃ command, ofWords words = .ok command ∧ command.refusal? = none) ∨
      ∃ error, ofWords words = .error error ∧ error.isOfReader = true := by
  cases words with
  | nil => exact Or.inr ⟨_, rfl, rfl⟩
  | cons word rest =>
    rw [ofWords]
    cases Operator.ofText? word with
    | some op =>
      cases rest with
      | nil => exact Or.inl ⟨_, rfl, rfl⟩
      | cons extra rest => exact Or.inr ⟨_, rfl, rfl⟩
    | none =>
      cases Direction.ofText? word with
      | none => exact Or.inr ⟨_, rfl, rfl⟩
      | some direction => exact readMove_cases direction rest

namespace Line

theorem words_text (index : Nat) (command : Command) :
    (Line.mk index command.text).words = command.fields := by
  have noSlash : '/' ∉ command.text.toList := command.not_mem_text (by decide) (by decide)
  rw [words, Text.cutComment_of_not_mem noSlash, Command.words_text]

theorem command_text (index : Nat) (command : Command) :
    (Line.mk index command.text).command =
      command.refusal?.elim (.ok (some command)) .error := by
  have some : command.fields ≠ [] := by
    intro none
    cases command <;> cases none
  rw [command_eq, words_text, if_neg some, Command.ofWords_fields]
  cases command.refusal? <;> rfl

theorem command_cases (line : Line) :
    line.command = .ok none ∨
      (∃ command, line.command = .ok (some command) ∧ command.refusal? = none) ∨
      ∃ error, line.command = .error error ∧ error.isOfReader = true := by
  rw [command_eq]
  split
  · exact Or.inl rfl
  · rcases Command.ofWords_cases line.words with
      ⟨command, read, accepted⟩ | ⟨error, failed, isOfReader⟩
    · rw [read]
      exact Or.inr (Or.inl ⟨command, rfl, accepted⟩)
    · rw [failed]
      exact Or.inr (Or.inr ⟨error, rfl, isOfReader⟩)

end Line

/-! ## Compiling a command -/

/-- Only the constant segment is checked by the reader. -/
theorem Command.fault?_of_cells {segment : Segment} (cells : segment ≠ .constant)
    (direction : Direction) (index : Word) :
    (move direction segment index).fault? = (move direction segment index).overrun? := by
  have accepted : (move direction segment index).refusal? = none := by
    rw [refusal?, if_neg fun popped => cells popped.1, if_neg fun large => cells large.1]
  rw [fault?, accepted, Option.none_or]

theorem Command.overrun?_move_eq_some_iff {direction : Direction} {segment : Segment} {index : Word}
    {last : Nat} {error : CommandError} (known : segment.lastIndex? = some last) :
    (move direction segment index).overrun? = some error ↔
      last < index.toNat ∧ error = .indexOutOfRange index := by
  rw [overrun?, known]
  dsimp only
  split
  · next high => simp [high, eq_comm]
  · next low => simp [low]

theorem Command.overrun?_eq_some_iff {command : Command} {error : CommandError} :
    command.overrun? = some error ↔
      ∃ index, command.Overruns index ∧ error = .indexOutOfRange index := by
  cases command with
  | operate op =>
    constructor
    · intro found
      cases found
    · intro found
      obtain ⟨index, ⟨direction, segment, last, moves, _⟩, _⟩ := found
      cases moves
  | move direction segment index =>
    cases known : segment.lastIndex? with
    | none =>
      constructor
      · intro found
        rw [overrun?, known] at found
        cases found
      · intro beyond
        obtain ⟨_, ⟨_, _, last, moves, found, _⟩, _⟩ := beyond
        cases moves
        rw [known] at found
        cases found
    | some last =>
      rw [overrun?_move_eq_some_iff known]
      constructor
      · intro both
        obtain ⟨high, same⟩ := both
        exact ⟨index, ⟨direction, segment, last, rfl, known, high⟩, same⟩
      · intro beyond
        obtain ⟨_, ⟨_, _, _, moves, found, high⟩, same⟩ := beyond
        cases moves
        rw [known] at found
        cases found
        exact ⟨high, same⟩

theorem loadOffset_eq_error_iff {base : Nat} {index : Word} {error : CommandError} :
    loadOffset base index = .error error ↔
      Word.maxLiteral < base + index.toNat ∧ error = .indexOutOfRange index := by
  unfold loadOffset
  split
  · next fits =>
    constructor
    · intro refused
      cases refused
    · intro both
      obtain ⟨large, _⟩ := both
      omega
  · next large =>
    constructor
    · intro refused
      cases refused
      exact ⟨Nat.lt_of_not_le large, rfl⟩
    · intro both
      obtain ⟨_, same⟩ := both
      rw [same]

theorem map_eq_error_iff {α β : Type} {f : α → β} {result : Except CommandError α}
    {error : CommandError} : result.map f = .error error ↔ result = .error error := by
  cases result <;> simp [Except.map]

/-- A segment with cells is out of reach from an index on that depends on its first address. -/
theorem map_loadOffset_eq_error_iff {f : Statement → Access} {base last : Nat} {segment : Segment}
    {index : Word} {error : CommandError} (cells : segment ≠ .constant)
    (known : segment.lastIndex? = some last) (bound : base + last = Word.maxLiteral) :
    (loadOffset base index).map f = .error error ↔
      (Command.move .push segment index).fault? = some error := by
  rw [map_eq_error_iff, loadOffset_eq_error_iff, Command.fault?_of_cells cells,
    Command.overrun?_move_eq_some_iff known, ← bound]
  constructor
  · intro both
    obtain ⟨large, same⟩ := both
    exact ⟨by omega, same⟩
  · intro both
    obtain ⟨large, same⟩ := both
    exact ⟨by omega, same⟩

/-- A cell or a value cannot be reached exactly if there is a fault in its push. -/
theorem access_eq_error_iff {unit : String} {index : Word} {segment : Segment}
    {error : CommandError} :
    access (some unit) index segment = .error error ↔
      (Command.move .push segment index).fault? = some error := by
  cases segment with
  | constant =>
    by_cases fits : index.toNat ≤ Word.maxLiteral
    · have accepted : (Command.move .push .constant index).fault? = none := by
        simp [Command.fault?, Command.refusal?, Command.overrun?, Segment.lastIndex?, fits]
      rw [access, if_pos fits, accepted]
      simp
    · have refused : (Command.move .push .constant index).fault? =
          some (.constantOutOfRange index) := by
        simp [Command.fault?, Command.refusal?, Nat.lt_of_not_le fits]
      rw [access, if_neg fits, refused, Except.error.injEq, Option.some.injEq]
  | locals | arguments | this | that =>
    exact map_loadOffset_eq_error_iff (by decide) rfl rfl
  | temp => exact map_loadOffset_eq_error_iff (by decide) rfl rfl
  | pointer => exact map_loadOffset_eq_error_iff (by decide) rfl rfl
  | statics =>
    rw [Command.fault?_of_cells (by decide)]
    constructor
    · intro refused
      cases refused
    · intro faulty
      cases faulty

theorem Code.exists_pop_of_cells {unit : String} {index : Word} {segment : Segment}
    {reached : Access} (cells : segment ≠ .constant)
    (granted : access (some unit) index segment = .ok reached) :
    ∃ code, Code.pop reached = .ok code := by
  cases Reached.of_access granted with
  | constant => exact absurd rfl cells
  | indirect known => exact ⟨_, rfl⟩
  | temp | pointer | statics => exact ⟨_, rfl⟩

theorem Code.move_eq_error_iff {unit : String} {direction : Direction} {segment : Segment}
    {index : Word} {error : CommandError} :
    Code.move (some unit) direction segment index = .error error ↔
      (Command.move direction segment index).fault? = some error := by
  cases direction with
  | push => rw [Code.move, map_eq_error_iff, access_eq_error_iff]
  | pop =>
    by_cases constant : segment = .constant
    · have refused : (Command.move .pop segment index).fault? = some .popConstant := by
        simp [Command.fault?, Command.refusal?, constant]
      rw [Code.move, if_pos constant, refused, Except.error.injEq, Option.some.injEq]
    · have alike : (Command.move .pop segment index).fault? =
          (Command.move .push segment index).fault? := by
        rw [Command.fault?_of_cells constant, Command.fault?_of_cells constant]
        rfl
      rw [Code.move, if_neg constant, alike, ← @access_eq_error_iff unit]
      cases granted : access (some unit) index segment with
      | error other =>
        show (Except.error other : Except CommandError Program) = .error error ↔ _
        rw [Except.error.injEq, Except.error.injEq]
      | ok reached =>
        obtain ⟨code, popped⟩ := Code.exists_pop_of_cells constant granted
        show Code.pop reached = .error error ↔ _
        rw [popped]
        simp

/-- **A command of a unit has no code exactly if there is a fault in it,** whatever was compiled
before; the fault is the error. -/
theorem Compiler.command_eq_error_iff {compiler : Compiler} {unit : String}
    (named : compiler.unit = some unit) {command : Command} {error : CommandError} :
    (compiler.command command).1 = .error error ↔ command.fault? = some error := by
  cases command with
  | operate op =>
    constructor
    · intro failed
      cases op <;> cases failed
    · intro faulty
      cases faulty
  | move direction segment index =>
    rw [Compiler.command, named]
    exact Code.move_eq_error_iff

theorem Compiler.exists_code_iff {compiler : Compiler} {unit : String}
    (named : compiler.unit = some unit) {command : Command} :
    (∃ code, (compiler.command command).1 = .ok code) ↔ command.fault? = none := by
  cases answer : (compiler.command command).1 with
  | ok code =>
    have clean : command.fault? = none := by
      rw [Option.eq_none_iff_forall_ne_some]
      intro error faulty
      have failed := (command_eq_error_iff named).2 faulty
      rw [answer] at failed
      cases failed
    exact ⟨fun _ => clean, fun _ => ⟨code, rfl⟩⟩
  | error error =>
    rw [(command_eq_error_iff named).1 answer]
    simp

end Hack.VM
