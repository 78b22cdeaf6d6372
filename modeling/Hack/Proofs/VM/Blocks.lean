import Hack.Proofs.VM.Commands

/-!
The blocks and diagnostics of a unit, told line by line.

Whether a line has an error, and what is said about it, depends on that line only (`Line.fault?`,
`Line.diagnostics`). The lines without errors give the items of the unit: commands with their
places. The blocks are the code of the items, one after the other, and nothing else of the lines
counts for them. `SourceUnit.compile_eq` puts both together: it is the compilation of a unit without
its loop.
-/

namespace Hack.VM

open Assembly

/-! ## What a line is worth -/

namespace Line

/-- Why a line has an error: its command cannot be read, or has no code. -/
def fault? (line : Line) : Option CommandError :=
  match line.command with
  | .error error => some error
  | .ok none => none
  | .ok (some command) => command.fault?

/-- The place and the command of a line whose command has code. -/
def item? (line : Line) : Option (Nat × Command) :=
  match line.fault? with
  | some _ => none
  | none => line.command?.map fun command => (line.index, command)

/-- What is said about a line: the remarks on its command before its error. -/
def diagnostics (line : Line) : List Diagnostic :=
  ((line.command?.map Command.remarks).getD [] ++ line.fault?.toList.map Remark.failed).map
    (Diagnostic.mk line.index)

theorem fault?_of_command {line : Line} {command : Command}
    (read : line.command = .ok (some command)) : line.fault? = command.fault? := by
  rw [fault?, read]

theorem item?_eq_some_iff {line : Line} {item : Nat × Command} :
    line.item? = some item ↔ ∃ command, line.command = .ok (some command) ∧
      command.fault? = none ∧ item = (line.index, command) := by
  cases read : line.command with
  | error error => simp [item?, fault?, read]
  | ok content =>
    cases content with
    | none => simp [item?, fault?, command?, read]
    | some command =>
      cases faulty : command.fault? with
      | some error => simp [item?, fault?, read, faulty]
      | none => simp [item?, fault?, command?, read, faulty, eq_comm]

end Line

/-- The commands of a unit that have code, with their places. -/
def SourceUnit.items (unit : SourceUnit) : List (Nat × Command) :=
  unit.lines.flatMap fun line => line.item?.toList

namespace Compiler

/-- The compiler behind some commands. -/
def after (compiler : Compiler) (items : List (Nat × Command)) : Compiler :=
  items.foldl (fun compiler item => (compiler.command item.2).2) compiler

/-- The blocks of commands. -/
def blocks (compiler : Compiler) : List (Nat × Command) → List Block
  | [] => []
  | item :: rest =>
    ⟨item.1, item.2, Reply.code ⟨item.2, (compiler.command item.2).1⟩⟩ ::
      (compiler.after [item]).blocks rest

theorem after_cons (compiler : Compiler) (item : Nat × Command) (rest : List (Nat × Command)) :
    compiler.after (item :: rest) = (compiler.after [item]).after rest := rfl

theorem after_append (compiler : Compiler) (front back : List (Nat × Command)) :
    compiler.after (front ++ back) = (compiler.after front).after back := List.foldl_append

theorem blocks_append (compiler : Compiler) (front back : List (Nat × Command)) :
    compiler.blocks (front ++ back) =
      compiler.blocks front ++ (compiler.after front).blocks back := by
  induction front generalizing compiler with
  | nil => rfl
  | cons item front ih =>
    rw [List.cons_append, blocks, ih, blocks, after_cons compiler item front, List.cons_append]

theorem after_unit (compiler : Compiler) (items : List (Nat × Command)) :
    (compiler.after items).unit = compiler.unit := by
  induction items generalizing compiler with
  | nil => rfl
  | cons item items ih =>
    rw [after_cons, ih]
    exact compiler.command_unit item.2

/-- Every item has one block, at its place. -/
theorem map_item_blocks (compiler : Compiler) (items : List (Nat × Command)) :
    (compiler.blocks items).map (fun block => (block.index, block.command)) = items := by
  induction items generalizing compiler with
  | nil => rfl
  | cons item items ih => rw [blocks, List.map_cons, ih]

/-- A command with an error counts no number. -/
theorem command_of_fault {compiler : Compiler} {command : Command} {error : CommandError}
    (failed : (compiler.command command).1 = .error error) :
    (compiler.command command).2 = compiler := by
  rcases compiler.command_cases command with ⟨_, jump, answer⟩ | ⟨_, answer⟩
  · rw [answer] at failed
    cases failed
  · rw [answer]

end Compiler

/-! ## Lines -/

namespace Compilation

/-- A line adds its block and its diagnostics, whatever was compiled before. -/
theorem addLine_eq {compiler : Compiler} {unit : String} (named : compiler.unit = some unit)
    (c : Compilation) (line : Line) :
    addLine (c, compiler) line =
      ({ blocks := c.blocks ++ (compiler.blocks line.item?.toList).toArray
         messages := c.messages ++ line.diagnostics.toArray },
        compiler.after line.item?.toList) := by
  rcases addLine_cases c compiler line with ⟨read, result⟩ |
    ⟨command, code, behind, read, answer, result⟩ |
    ⟨command, error, behind, read, answer, result⟩ | ⟨error, read, result⟩
  · have clean : line.fault? = none := by rw [Line.fault?, read]
    have noItem : line.item? = none := by simp [Line.item?, Line.command?, clean, read]
    have silent : line.diagnostics = [] := by
      simp [Line.diagnostics, Line.command?, clean, read]
    rw [result, noItem, silent]
    simp [Compiler.blocks, Compiler.after]
  · have coded : command.fault? = none :=
      (compiler.exists_code_iff named).1 ⟨code, congrArg Prod.fst answer⟩
    have clean : line.fault? = none := (Line.fault?_of_command read).trans coded
    have item : line.item? = some (line.index, command) :=
      Line.item?_eq_some_iff.2 ⟨command, read, coded, rfl⟩
    have remarked : line.diagnostics = command.remarks.map (Diagnostic.mk line.index) := by
      simp [Line.diagnostics, Line.command?, clean, read]
    rw [result, item, remarked]
    simp [Compiler.blocks, Compiler.after, answer, Reply.code, Except.toOption]
  · have failed := congrArg Prod.fst answer
    have same : behind = compiler := by
      have unchanged := Compiler.command_of_fault failed
      rwa [answer] at unchanged
    have faulty : line.fault? = some error :=
      (Line.fault?_of_command read).trans ((compiler.command_eq_error_iff named).1 failed)
    have noItem : line.item? = none := by rw [Line.item?, faulty]
    have remarked : line.diagnostics =
        command.remarks.map (Diagnostic.mk line.index) ++ [⟨line.index, .failed error⟩] := by
      simp [Line.diagnostics, Line.command?, faulty, read]
    rw [result, noItem, remarked, same]
    simp [Compiler.blocks, Compiler.after]
  · have faulty : line.fault? = some error := by rw [Line.fault?, read]
    have noItem : line.item? = none := by rw [Line.item?, faulty]
    have refused : line.diagnostics = [⟨line.index, .failed error⟩] := by
      simp [Line.diagnostics, Line.command?, faulty, read]
    rw [result, noItem, refused]
    simp [Compiler.blocks, Compiler.after]

theorem foldl_addLine {compiler : Compiler} {unit : String} (named : compiler.unit = some unit)
    (c : Compilation) (lines : List Line) :
    lines.foldl addLine (c, compiler) =
      ({ blocks := c.blocks ++
           (compiler.blocks (lines.flatMap fun line => line.item?.toList)).toArray
         messages := c.messages ++ (lines.flatMap Line.diagnostics).toArray },
        compiler.after (lines.flatMap fun line => line.item?.toList)) := by
  induction lines generalizing c compiler with
  | nil => simp [Compiler.blocks, Compiler.after]
  | cons line lines ih =>
    have namedAfter : (compiler.after line.item?.toList).unit = some unit := by
      rw [Compiler.after_unit, named]
    rw [List.foldl_cons, addLine_eq named, ih namedAfter, List.flatMap_cons, List.flatMap_cons,
      Compiler.blocks_append, Compiler.after_append]
    simp

end Compilation

/-- **A compilation line by line:** the blocks are those of the items, and the diagnostics those
of the lines. -/
theorem SourceUnit.compile_eq (unit : SourceUnit) :
    unit.compile =
      { blocks := ((Compiler.start (some unit.name)).blocks unit.items).toArray
        messages := (unit.lines.flatMap Line.diagnostics).toArray } := by
  have named : (Compiler.start (some unit.name)).unit = some unit.name := rfl
  rw [SourceUnit.compile, Compilation.foldl_addLine named]
  simp [SourceUnit.items]

/-! ## Errors -/

/-- No remark on a command is an error. -/
theorem Command.severity_of_mem_remarks {command : Command} {remark : Remark}
    (member : remark ∈ command.remarks) : remark.severity ≠ .error := by
  cases command with
  | operate op => cases member
  | move direction segment index =>
    cases segment with
    | constant | locals | arguments | this | that | statics => cases member
    | temp | pointer =>
      simp only [remarks, Segment.limit?] at member
      split at member
      · simp at member
        rcases member with rfl | rfl <;> simp [Remark.severity]
      · cases member

/-- Of what is said about a line, only its error is one. -/
theorem Line.filter_isError_diagnostics (line : Line) :
    line.diagnostics.filter Diagnostic.isError =
      line.fault?.toList.map fun error => ⟨line.index, .failed error⟩ := by
  have noError : ∀ remark ∈ (line.command?.map Command.remarks).getD [],
      remark.severity ≠ .error := by
    intro remark member
    cases read : line.command? with
    | none =>
      rw [read] at member
      cases member
    | some command =>
      rw [read] at member
      exact Command.severity_of_mem_remarks member
  rw [Line.diagnostics, List.map_append, List.filter_append, List.map_map]
  have dropped : (((line.command?.map Command.remarks).getD []).map
      (Diagnostic.mk line.index)).filter Diagnostic.isError = [] := by
    rw [List.filter_eq_nil_iff]
    intro diagnostic member
    obtain ⟨remark, inRemarks, rfl⟩ := List.mem_map.1 member
    simpa [Diagnostic.isError, Diagnostic.severity] using noError remark inRemarks
  rw [dropped]
  cases line.fault? <;> rfl

/-- An error is said about a line exactly if it is the line's. -/
theorem Line.mem_diagnostics_iff {line : Line} {diagnostic : Diagnostic}
    (isError : diagnostic.isError = true) :
    diagnostic ∈ line.diagnostics ↔
      ∃ error, line.fault? = some error ∧ diagnostic = ⟨line.index, .failed error⟩ := by
  have errors := line.filter_isError_diagnostics
  constructor
  · intro member
    have kept := List.mem_filter.2 ⟨member, isError⟩
    rw [errors] at kept
    obtain ⟨error, faulty, rfl⟩ := List.mem_map.1 kept
    exact ⟨error, Option.mem_toList.1 faulty, rfl⟩
  · intro own
    obtain ⟨error, faulty, same⟩ := own
    have kept : diagnostic ∈ line.diagnostics.filter Diagnostic.isError := by
      rw [errors, same]
      exact List.mem_map.2 ⟨error, Option.mem_toList.2 faulty, rfl⟩
    exact (List.mem_filter.1 kept).1

theorem Line.any_isError_diagnostics (line : Line) :
    line.diagnostics.any Diagnostic.isError = line.fault?.isSome := by
  rw [Bool.eq_iff_iff, List.any_eq_true, Option.isSome_iff_exists]
  constructor
  · intro reported
    obtain ⟨diagnostic, member, isError⟩ := reported
    obtain ⟨error, faulty, _⟩ := (mem_diagnostics_iff isError).1 member
    exact ⟨error, faulty⟩
  · intro found
    obtain ⟨error, faulty⟩ := found
    exact ⟨_, (mem_diagnostics_iff rfl).2 ⟨error, faulty, rfl⟩, rfl⟩

/-- The errors of a unit are those of its lines. -/
theorem SourceUnit.mem_messages_iff {unit : SourceUnit} {diagnostic : Diagnostic}
    (isError : diagnostic.isError = true) :
    diagnostic ∈ unit.compile.messages ↔
      ∃ line ∈ unit.lines, ∃ error, line.fault? = some error ∧
        diagnostic = ⟨line.index, .failed error⟩ := by
  rw [compile_eq, List.mem_toArray, List.mem_flatMap]
  simp only [Line.mem_diagnostics_iff isError]

theorem SourceUnit.hasError_compile_iff {unit : SourceUnit} :
    unit.compile.hasError = true ↔ ∃ line ∈ unit.lines, ∃ error, line.fault? = some error := by
  rw [Compilation.hasError, Array.any_eq_true']
  constructor
  · intro reported
    obtain ⟨diagnostic, member, isError⟩ := reported
    obtain ⟨line, inUnit, error, faulty, _⟩ := (mem_messages_iff isError).1 member
    exact ⟨line, inUnit, error, faulty⟩
  · intro found
    obtain ⟨line, inUnit, error, faulty⟩ := found
    exact ⟨_, (mem_messages_iff rfl).2 ⟨line, inUnit, error, faulty, rfl⟩, rfl⟩

end Hack.VM
