import Hack.Proofs.VM.Blocks

/-!
What becomes of every line of a unit.

A blank line gives nothing, and every other line gives one block or one error, but not both
(`every_line_accounted`). A line that moves a value beyond the cells of its segment is remarked upon,
ahead of its error if it has one. Blocks and diagnostics stand in the order of their lines. The
errors themselves come from the reader of commands, apart from an index that no load instruction can
hold (`reader_agrees_with_compiler`).
-/

namespace Hack.VM

open Assembly

/-! ## The lines of a unit -/

theorem SourceUnit.map_index_lines (unit : SourceUnit) :
    unit.lines.map Line.index = List.range unit.lines.length := by
  rw [lines, Line.ofSource, List.map_map, List.length_map, List.length_zipIdx,
    List.range_eq_range', ← List.zipIdx_map_snd]
  rfl

theorem SourceUnit.pairwise_index_lines (unit : SourceUnit) :
    unit.lines.Pairwise fun line later => line.index < later.index := by
  have increasing : (unit.lines.map Line.index).Pairwise (· < ·) := by
    rw [map_index_lines]
    exact List.pairwise_lt_range
  exact List.pairwise_map.1 increasing

theorem SourceUnit.index_lt_of_mem_lines {unit : SourceUnit} {line : Line}
    (member : line ∈ unit.lines) : line.index < unit.lines.length := by
  have place : line.index ∈ unit.lines.map Line.index := List.mem_map_of_mem member
  rw [map_index_lines] at place
  exact List.mem_range.1 place

namespace Line

/-- Whether a line has nothing but blanks before its comment. -/
def isBlank (line : Line) : Bool := (Text.cutComment line.raw.toList).1.all Text.isBlank

theorem command_eq_none_iff {line : Line} : line.command = .ok none ↔ line.isBlank = true := by
  have empty : line.code.isEmpty = true ↔ line.isBlank = true := by
    rw [isBlank, ← Text.trim_eq_nil_iff, String.isEmpty_iff, code, String.ofList_eq_empty_iff]
  rw [← empty, command]
  constructor
  · intro nothing
    split at nothing
    · next noCode => exact noCode
    · split at nothing <;> cases nothing
  · intro noCode
    rw [if_pos noCode]

/-- A blank line has neither item nor diagnostics. -/
theorem silent_of_isBlank {line : Line} (blank : line.isBlank = true) :
    line.item? = none ∧ line.diagnostics = [] := by
  have read := command_eq_none_iff.2 blank
  simp [item?, diagnostics, fault?, command?, read]

/-- Any other line has an item or an error. -/
theorem item_or_fault {line : Line} (written : line.isBlank = false) :
    ((∃ command, line.item? = some (line.index, command)) ∧ line.fault? = none) ∨
      (line.item? = none ∧ ∃ error, line.fault? = some error) := by
  cases faulty : line.fault? with
  | some error => exact Or.inr ⟨by rw [item?, faulty], error, rfl⟩
  | none =>
    cases read : line.command with
    | error error =>
      rw [fault?, read] at faulty
      cases faulty
    | ok content =>
      cases content with
      | none =>
        rw [command_eq_none_iff.1 read] at written
        cases written
      | some command =>
        have clean : command.fault? = none := (fault?_of_command read).symm.trans faulty
        exact Or.inl ⟨⟨command, item?_eq_some_iff.2 ⟨command, read, clean, rfl⟩⟩, rfl⟩

/-- A line that is read as a move of a cell beyond those that the memory map keeps. -/
def Strays (line : Line) : Prop :=
  ∃ direction index,
    (line.command = .ok (some (.move direction .temp index)) ∧ 7 < index.toNat) ∨
      (line.command = .ok (some (.move direction .pointer index)) ∧ 1 < index.toNat)

/-- Such a line has a warning and a note on it. -/
theorem remarks_of_strays {line : Line} (strays : line.Strays) :
    ∃ warning note : Remark, warning.severity = .warning ∧ note.severity = .note ∧
      (line.command?.map Command.remarks).getD [] = [warning, note] := by
  obtain ⟨direction, index, ⟨read, beyond⟩ | ⟨read, beyond⟩⟩ := strays
  · refine ⟨.beyondLimit .temp index 7, .tempCells, rfl, rfl, ?_⟩
    simp [command?, read, Command.remarks, Segment.limit?, beyond]
  · refine ⟨.beyondLimit .pointer index 1, .pointerCells, rfl, rfl, ?_⟩
    simp [command?, read, Command.remarks, Segment.limit?, beyond]

theorem remarks_of_not_strays {line : Line} (stays : ¬ line.Strays) :
    (line.command?.map Command.remarks).getD [] = [] := by
  cases read : line.command with
  | error error => simp [command?, read]
  | ok content =>
    cases content with
    | none => simp [command?, read]
    | some command =>
      simp only [command?, read, Option.map_some, Option.getD_some]
      cases command with
      | operate op => rfl
      | move direction segment index =>
        cases segment with
        | constant | locals | arguments | this | that | statics => rfl
        | temp =>
          have inside : ¬ 7 < index.toNat := fun beyond =>
            stays ⟨direction, index, Or.inl ⟨read, beyond⟩⟩
          simp [Command.remarks, Segment.limit?, inside]
        | pointer =>
          have inside : ¬ 1 < index.toNat := fun beyond =>
            stays ⟨direction, index, Or.inr ⟨read, beyond⟩⟩
          simp [Command.remarks, Segment.limit?, inside]

end Line

/-! ## What belongs to a line -/

section

variable {α β : Type} {f : α → List β} {place : α → Nat} {key : β → Nat} {xs : List α} {x : α}
  (member : x ∈ xs)

include member

theorem infix_flatMap : f x <:+: xs.flatMap f := by
  obtain ⟨front, back, rfl⟩ := List.append_of_mem member
  exact ⟨front.flatMap f, back.flatMap f, by simp⟩

/-- If things at increasing places give results with their place, the results with one place are
those of one thing. -/
theorem filter_flatMap_eq (keyed : ∀ x, ∀ y ∈ f x, key y = place x)
    (increasing : xs.Pairwise fun x later => place x < place later) :
    (xs.flatMap f).filter (key · == place x) = f x := by
  obtain ⟨front, back, rfl⟩ := List.append_of_mem member
  obtain ⟨_, later, earlier⟩ := List.pairwise_append.1 increasing
  have others : ∀ z, place z ≠ place x → (f z).filter (key · == place x) = [] := by
    intro z differ
    rw [List.filter_eq_nil_iff]
    intro y inResults
    rw [keyed z y inResults]
    simpa using differ
  have before : (front.flatMap f).filter (key · == place x) = [] := by
    rw [List.filter_flatMap, List.flatMap_eq_nil_iff]
    intro z inFront
    exact others z (Nat.ne_of_lt (earlier z inFront x List.mem_cons_self))
  have behind : (back.flatMap f).filter (key · == place x) = [] := by
    rw [List.filter_flatMap, List.flatMap_eq_nil_iff]
    intro z inBack
    exact others z (Nat.ne_of_gt ((List.pairwise_cons.1 later).1 z inBack))
  have own : (f x).filter (key · == place x) = f x := by
    rw [List.filter_eq_self]
    intro y inResults
    rw [keyed x y inResults]
    exact BEq.rfl
  rw [List.flatMap_append, List.flatMap_cons, List.filter_append, List.filter_append, before, own,
    behind, List.nil_append, List.append_nil]

end

theorem Line.fst_of_mem_item? (line : Line) :
    ∀ item ∈ line.item?.toList, item.1 = line.index := by
  intro item member
  obtain ⟨command, _, _, rfl⟩ := item?_eq_some_iff.1 (Option.mem_toList.1 member)
  rfl

theorem Line.index_of_mem_diagnostics (line : Line) :
    ∀ diagnostic ∈ line.diagnostics, diagnostic.index = line.index := by
  intro diagnostic member
  obtain ⟨remark, _, rfl⟩ := List.mem_map.1 member
  rfl

namespace Compilation

/-- The blocks of the line at a place. -/
def blocksAt (c : Compilation) (index : Nat) : List Block :=
  c.blocks.toList.filter (·.index == index)

/-- The diagnostics of the line at a place. -/
def messagesAt (c : Compilation) (index : Nat) : List Diagnostic :=
  c.messages.toList.filter (·.index == index)

/-- What a compilation holds for a line. -/
structure Accounts (c : Compilation) (line : Line) : Prop where
  blank : line.isBlank = true → c.blocksAt line.index = [] ∧ c.messagesAt line.index = []
  settled : line.isBlank = false →
    ((∃ block, c.blocksAt line.index = [block]) ∧
        (c.messagesAt line.index).filter Diagnostic.isError = []) ∨
      (c.blocksAt line.index = [] ∧
        ∃ error, (c.messagesAt line.index).filter Diagnostic.isError = [error])
  /-- The diagnostics of the line stand together. -/
  together : c.messagesAt line.index <:+: c.messages.toList
  remarked : line.Strays → ∃ warning note errors,
    warning.severity = .warning ∧ note.severity = .note ∧
      (∀ error ∈ errors, error.isError = true) ∧
      c.messagesAt line.index = warning :: note :: errors
  unremarked : ¬ line.Strays → ∀ diagnostic ∈ c.messagesAt line.index, diagnostic.isError = true

end Compilation

namespace SourceUnit

theorem map_item_blocks_compile (unit : SourceUnit) :
    unit.compile.blocks.toList.map (fun block => (block.index, block.command)) = unit.items := by
  rw [compile_eq]
  exact Compiler.map_item_blocks _ _

theorem toList_messages_compile (unit : SourceUnit) :
    unit.compile.messages.toList = unit.lines.flatMap Line.diagnostics := by
  rw [compile_eq]

theorem pairwise_items (unit : SourceUnit) :
    unit.items.Pairwise fun item later => item.1 < later.1 := by
  rw [items, List.pairwise_flatMap]
  constructor
  · intro line _
    cases line.item? <;> simp
  · apply unit.pairwise_index_lines.imp
    intro line later before item inLine other inLater
    rw [Line.fst_of_mem_item? line item inLine, Line.fst_of_mem_item? later other inLater]
    exact before

theorem pairwise_blocks_compile (unit : SourceUnit) :
    unit.compile.blocks.toList.Pairwise fun block later => block.index < later.index := by
  have increasing := unit.pairwise_items
  rw [← unit.map_item_blocks_compile, List.pairwise_map] at increasing
  exact increasing

theorem pairwise_messages_compile (unit : SourceUnit) :
    unit.compile.messages.toList.Pairwise fun diagnostic later =>
      diagnostic.index ≤ later.index := by
  rw [toList_messages_compile, List.pairwise_flatMap]
  constructor
  · intro line _
    rw [Line.diagnostics, List.pairwise_map]
    exact List.pairwise_of_forall fun _ _ => Nat.le_refl _
  · apply unit.pairwise_index_lines.imp
    intro line later before diagnostic inLine other inLater
    rw [Line.index_of_mem_diagnostics line diagnostic inLine,
      Line.index_of_mem_diagnostics later other inLater]
    exact Nat.le_of_lt before

theorem index_lt_of_mem_blocks {unit : SourceUnit} {block : Block}
    (member : block ∈ unit.compile.blocks) : block.index < unit.lines.length := by
  have item : (block.index, block.command) ∈ unit.items := by
    rw [← unit.map_item_blocks_compile]
    exact List.mem_map.2 ⟨block, Array.mem_toList_iff.2 member, rfl⟩
  obtain ⟨line, inUnit, own⟩ := List.mem_flatMap.1 item
  have place : block.index = line.index := Line.fst_of_mem_item? line _ own
  rw [place]
  exact index_lt_of_mem_lines inUnit

theorem index_lt_of_mem_messages {unit : SourceUnit} {diagnostic : Diagnostic}
    (member : diagnostic ∈ unit.compile.messages) : diagnostic.index < unit.lines.length := by
  have said := Array.mem_toList_iff.2 member
  rw [toList_messages_compile] at said
  obtain ⟨line, inUnit, own⟩ := List.mem_flatMap.1 said
  rw [Line.index_of_mem_diagnostics line diagnostic own]
  exact index_lt_of_mem_lines inUnit

section

variable {unit : SourceUnit} {line : Line} (member : line ∈ unit.lines)

include member

theorem map_item_blocksAt :
    (unit.compile.blocksAt line.index).map (fun block => (block.index, block.command)) =
      line.item?.toList := by
  have own := filter_flatMap_eq member Line.fst_of_mem_item? unit.pairwise_index_lines
  rw [← own]
  show _ = unit.items.filter _
  rw [← unit.map_item_blocks_compile, List.filter_map]
  rfl

theorem messagesAt_eq : unit.compile.messagesAt line.index = line.diagnostics := by
  rw [Compilation.messagesAt, toList_messages_compile]
  exact filter_flatMap_eq member Line.index_of_mem_diagnostics unit.pairwise_index_lines

theorem blocksAt_eq_nil_iff : unit.compile.blocksAt line.index = [] ↔ line.item? = none := by
  rw [← Option.toList_eq_nil_iff, ← map_item_blocksAt member, List.map_eq_nil_iff]

/-- The compilation of a unit holds for a line what the line is worth. -/
theorem accounts_of_mem_lines : unit.compile.Accounts line := by
  have messages := messagesAt_eq member
  refine
    { blank := ?_
      settled := ?_
      together := ?_
      remarked := ?_
      unremarked := ?_ }
  · intro blank
    obtain ⟨noItem, silent⟩ := Line.silent_of_isBlank blank
    rw [messages, silent]
    exact ⟨(blocksAt_eq_nil_iff member).2 noItem, rfl⟩
  · intro written
    rw [messages, Line.filter_isError_diagnostics]
    rcases Line.item_or_fault written with ⟨⟨command, item⟩, clean⟩ | ⟨noItem, error, faulty⟩
    · have one := map_item_blocksAt member
      rw [item] at one
      obtain ⟨block, blocks, _⟩ := List.map_eq_singleton_iff.1 one
      rw [clean]
      exact Or.inl ⟨⟨block, blocks⟩, rfl⟩
    · rw [faulty]
      exact Or.inr ⟨(blocksAt_eq_nil_iff member).2 noItem, _, rfl⟩
  · rw [messages, toList_messages_compile]
    exact infix_flatMap member
  · intro strays
    obtain ⟨warning, note, isWarning, isNote, remarks⟩ := Line.remarks_of_strays strays
    refine ⟨⟨line.index, warning⟩, ⟨line.index, note⟩,
      line.fault?.toList.map fun error => ⟨line.index, .failed error⟩, isWarning, isNote, ?_, ?_⟩
    · intro diagnostic inErrors
      obtain ⟨error, _, rfl⟩ := List.mem_map.1 inErrors
      rfl
    · rw [messages, Line.diagnostics, remarks]
      simp
  · intro stays diagnostic said
    rw [messages, Line.diagnostics, Line.remarks_of_not_strays stays, List.nil_append] at said
    obtain ⟨remark, inErrors, rfl⟩ := List.mem_map.1 said
    obtain ⟨error, _, rfl⟩ := List.mem_map.1 inErrors
    rfl

end

/-- The lines with errors are those that are neither blank nor have a block. -/
theorem hasError_iff_unsettled (unit : SourceUnit) :
    unit.compile.hasError = true ↔
      ∃ line ∈ unit.lines, line.isBlank = false ∧ unit.compile.blocksAt line.index = [] := by
  rw [hasError_compile_iff]
  constructor
  · intro found
    obtain ⟨line, member, error, faulty⟩ := found
    refine ⟨line, member, ?_, ?_⟩
    · cases blank : line.isBlank with
      | false => rfl
      | true =>
        rw [Line.fault?, Line.command_eq_none_iff.2 blank] at faulty
        cases faulty
    · rw [blocksAt_eq_nil_iff member, Line.item?, faulty]
  · intro unsettled
    obtain ⟨line, member, written, nothing⟩ := unsettled
    rcases Line.item_or_fault written with ⟨⟨command, item⟩, _⟩ | ⟨_, error, faulty⟩
    · rw [(blocksAt_eq_nil_iff member).1 nothing] at item
      cases item
    · exact ⟨line, member, error, faulty⟩

end SourceUnit

/-- **Every line is accounted for once.** Besides what a compilation holds for each line, its blocks
and its diagnostics are in the order of the lines, and there is an error exactly if a line that is
not blank has no block. -/
theorem every_line_accounted (unit : SourceUnit) :
    (∀ line ∈ unit.lines, unit.compile.Accounts line) ∧
    unit.compile.blocks.toList.Pairwise (fun block later => block.index < later.index) ∧
    unit.compile.messages.toList.Pairwise
      (fun diagnostic later => diagnostic.index ≤ later.index) ∧
    (∀ block ∈ unit.compile.blocks, block.index < unit.lines.length) ∧
    (∀ diagnostic ∈ unit.compile.messages, diagnostic.index < unit.lines.length) ∧
    (unit.compile.hasError = true ↔
      ∃ line ∈ unit.lines, line.isBlank = false ∧ unit.compile.blocksAt line.index = []) := by
  refine ⟨?_, unit.pairwise_blocks_compile, unit.pairwise_messages_compile, ?_, ?_,
    unit.hasError_iff_unsettled⟩
  · intro line member
    exact unit.accounts_of_mem_lines member
  · intro block member
    exact SourceUnit.index_lt_of_mem_blocks member
  · intro diagnostic member
    exact SourceUnit.index_lt_of_mem_messages member

/-- A unit with a move beyond the segment, a blank line, no command, and a move out of reach. -/
def sampleFaults : SourceUnit :=
  ⟨"Main.vm", "Main", "push temp 9 // far\n\nfoo\npop temp 32763", isSymbol_main⟩

/-- The move out of reach has a warning and a note ahead of its error. -/
theorem every_line_accounted_sampleFaults :
    ⟨3, "pop temp 32763"⟩ ∈ sampleFaults.lines ∧ (Line.mk 3 "pop temp 32763").Strays ∧
      (∃ warning note errors, warning.severity = .warning ∧ note.severity = .note ∧
        (∀ error ∈ errors, error.isError = true) ∧
        sampleFaults.compile.messagesAt 3 = warning :: note :: errors) ∧
      sampleFaults.compile.hasError = true := by
  have member : ⟨3, "pop temp 32763"⟩ ∈ sampleFaults.lines := by decide +kernel
  have strays : (Line.mk 3 "pop temp 32763").Strays :=
    ⟨.pop, 32763, Or.inl ⟨by decide +kernel, by decide⟩⟩
  obtain ⟨accounts, _, _, _, _, errors⟩ := every_line_accounted sampleFaults
  refine ⟨member, strays, (accounts _ member).remarked strays, errors.2 ⟨_, member, ?_, ?_⟩⟩
  · decide +kernel
  · decide +kernel

/-! ## Errors -/

/-- The first letter of the wording of an error. -/
def CommandError.initial : CommandError → Char
  | .unknownCommand _ | .unknownSegment _ | .extraArgument _ => 'U'
  | .missingArgument => 'M'
  | .badIndex _ | .popConstant | .constantOutOfRange _ => 'C'
  | .indexOutOfRange _ => 'I'
  | .missingUnitName => 'S'

/-- The first letter of the wording of a remark. -/
def Remark.initial : Remark → Char
  | .failed error => error.initial
  | .beyondLimit .. => 'I'
  | .pointerCells => 'p'
  | .tempCells => 't'

theorem head?_toList_append {front back : String} {c : Char}
    (first : front.toList.head? = some c) : (front ++ back).toList.head? = some c := by
  rw [String.toList_append, List.head?_append, first, Option.some_or]

theorem CommandError.head?_message (error : CommandError) :
    error.message.toList.head? = some error.initial := by
  cases error with
  | missingArgument | popConstant | missingUnitName => rfl
  | _ => exact head?_toList_append (head?_toList_append rfl)

theorem Remark.head?_text (remark : Remark) : remark.text.toList.head? = some remark.initial := by
  cases remark with
  | failed error => exact error.head?_message
  | beyondLimit segment index limit =>
    -- the wording is put together from six pieces
    iterate 6 apply head?_toList_append
    rfl
  | pointerCells | tempCells => rfl

/-- Only one remark has the wording of the error for a missing name. -/
theorem Remark.eq_of_text {remark : Remark}
    (same : remark.text = CommandError.missingUnitName.message) :
    remark = .failed .missingUnitName := by
  have initials := remark.head?_text
  rw [same, CommandError.head?_message, Option.some.injEq] at initials
  cases remark with
  | failed error =>
    cases error with
    | missingUnitName => rfl
    | _ => simp [initial, CommandError.initial] at initials
  | _ => simp [initial, CommandError.initial] at initials

theorem Line.fault?_cases {line : Line} {error : CommandError} (faulty : line.fault? = some error) :
    (line.command = .error error ∧ error.isOfReader = true) ∨
      ∃ command index, line.command = .ok (some command) ∧ command.Overruns index ∧
        error = .indexOutOfRange index := by
  rcases line.command_cases with read | ⟨command, read, accepted⟩ | ⟨other, read, isOfReader⟩
  · rw [fault?, read] at faulty
    cases faulty
  · rw [fault?_of_command read, Command.fault?, accepted, Option.none_or,
      Command.overrun?_eq_some_iff] at faulty
    obtain ⟨index, overruns, same⟩ := faulty
    exact Or.inr ⟨command, index, read, overruns, same⟩
  · rw [fault?, read] at faulty
    cases faulty
    exact Or.inl ⟨read, isOfReader⟩

/-- The errors of a unit are those of the reader and indexes that are too high. -/
theorem SourceUnit.origin_of_failed {unit : SourceUnit} {diagnostic : Diagnostic}
    (member : diagnostic ∈ unit.compile.messages) {error : CommandError}
    (failed : diagnostic.remark = .failed error) :
    ∃ line ∈ unit.lines, line.index = diagnostic.index ∧
      ((line.command = .error error ∧ error.isOfReader = true) ∨
        ∃ command index, line.command = .ok (some command) ∧ command.Overruns index ∧
          error = .indexOutOfRange index) := by
  have isError : diagnostic.isError = true := by
    rw [Diagnostic.isError, Diagnostic.severity, failed]
    rfl
  obtain ⟨line, inUnit, own, faulty, rfl⟩ := (mem_messages_iff isError).1 member
  cases failed
  exact ⟨line, inUnit, rfl, Line.fault?_cases faulty⟩

theorem SourceUnit.ne_missingUnitName_of_failed {unit : SourceUnit} {diagnostic : Diagnostic}
    (member : diagnostic ∈ unit.compile.messages) {error : CommandError}
    (failed : diagnostic.remark = .failed error) : error ≠ .missingUnitName := by
  intro missing
  rw [missing] at failed
  obtain ⟨_, _, _, ⟨_, isOfReader⟩ | ⟨_, _, _, _, same⟩⟩ := origin_of_failed member failed
  · cases isOfReader
  · cases same

/-- **The reader and the compiler refuse the same commands.** A command whose text is not read back
is refused by a compiler with the same error, in every unit and whatever was compiled before. Any
other command has code, or an index above the last one of its segment, which is its error. So an
error of a unit is one of the reader or an index that is too high. -/
theorem reader_agrees_with_compiler {compiler : Compiler} {unit : String}
    (named : compiler.unit = some unit) (command : Command) :
    (∀ error, Command.ofText command.text = .error error →
      (error = .popConstant ∨ ∃ direction segment index,
        command = .move direction segment index ∧ error = .constantOutOfRange index) ∧
      (compiler.command command).1 = .error error) ∧
    (∀ read, Command.ofText command.text = .ok read →
      read = command ∧
      ((∃ code, (compiler.command command).1 = .ok code) ∨
        ∃ index, (compiler.command command).1 = .error (.indexOutOfRange index)) ∧
      ∀ index, (compiler.command command).1 = .error (.indexOutOfRange index) ↔
        command.Overruns index) ∧
    ∀ source : SourceUnit, ∀ diagnostic ∈ source.compile.messages,
      diagnostic.text ≠ CommandError.missingUnitName.message ∧
      ∀ error, diagnostic.remark = .failed error →
        ∃ line ∈ source.lines, line.index = diagnostic.index ∧
          (line.command = .error error ∨
            ∃ command index, line.command = .ok (some command) ∧ command.Overruns index ∧
              error = .indexOutOfRange index) := by
  refine ⟨?_, ?_, ?_⟩
  · intro error failed
    have refused := Command.refusal?_of_ofText_text failed
    refine ⟨Command.refusal?_cases refused, ?_⟩
    rw [Compiler.command_eq_error_iff named, Command.fault?, refused, Option.some_or]
  · intro read accepted
    obtain ⟨same, clean⟩ := Command.of_ofText_text accepted
    have fault : command.fault? = command.overrun? := by
      rw [Command.fault?, clean, Option.none_or]
    refine ⟨same, ?_, ?_⟩
    · cases high : command.overrun? with
      | none => exact Or.inl ((Compiler.exists_code_iff named).2 (fault.trans high))
      | some error =>
        obtain ⟨index, _, same⟩ := Command.overrun?_eq_some_iff.1 high
        rw [same] at high
        exact Or.inr ⟨index, (Compiler.command_eq_error_iff named).2 (fault.trans high)⟩
    · intro index
      rw [Compiler.command_eq_error_iff named, fault, Command.overrun?_eq_some_iff]
      constructor
      · intro found
        obtain ⟨_, overruns, same⟩ := found
        cases same
        exact overruns
      · intro overruns
        exact ⟨index, overruns, rfl⟩
  · intro source diagnostic member
    constructor
    · intro same
      have missing := Remark.eq_of_text same
      exact SourceUnit.ne_missingUnitName_of_failed member missing rfl
    · intro error failed
      obtain ⟨line, inUnit, place, origin⟩ := SourceUnit.origin_of_failed member failed
      exact ⟨line, inUnit, place, origin.imp_left And.left⟩

/-- A constant of sixteen bits is refused on both sides; the temporary cell whose address would be
one too high is read, but not compiled. -/
theorem reader_agrees_with_compiler_main :
    (Compiler.mk (some "Main") ⟨7⟩).unit = some "Main" ∧
    ((Compiler.mk (some "Main") ⟨7⟩).command (.move .push .constant 32768)).1 =
      .error (.constantOutOfRange 32768) ∧
    ((Compiler.mk (some "Main") ⟨7⟩).command (.move .pop .temp 32763)).1 =
      .error (.indexOutOfRange 32763) := by
  have named : (Compiler.mk (some "Main") ⟨7⟩).unit = some "Main" := rfl
  have refused : Command.ofText (Command.move .push .constant 32768).text =
      .error (.constantOutOfRange 32768) := by
    decide +kernel
  have accepted : Command.ofText (Command.move .pop .temp 32763).text =
      .ok (.move .pop .temp 32763) := by
    decide +kernel
  obtain ⟨left, _, _⟩ := reader_agrees_with_compiler named (.move .push .constant 32768)
  obtain ⟨_, right, _⟩ := reader_agrees_with_compiler named (.move .pop .temp 32763)
  exact ⟨named, (left _ refused).2,
    ((right _ accepted).2.2 32763).2 ⟨.pop, .temp, 32762, rfl, rfl, by decide⟩⟩

end Hack.VM
