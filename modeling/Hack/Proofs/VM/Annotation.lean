import Hack.Proofs.VM.Composition
import Mathlib.Data.List.Basic

/-!
What the comments in compiled text say.

A compiled unit can be printed with the command of each block as a comment ahead of its code. These
comments are the lines that begin with a mark, since no statement of the code has a slash. Without
them the text is the one that is printed without comments. Taken by themselves they are a source
text again: its commands are those that have code, so it has no errors, and it is compiled to the
same code (`comments_decompile`).
-/

namespace Hack.VM

open Assembly

/-! ## Comments in a text -/

/-- Whether a line begins with the mark of a printed comment. -/
def isComment (line : String) : Bool := "// ".toList.isPrefixOf line.toList

/-- A comment without its mark. -/
def commentText (line : String) : String := String.ofList (line.toList.drop 3)

/-- The comments among the lines of a text, without their marks. -/
def comments (text : String) : List String :=
  ((Text.lines text).filter isComment).map commentText

/-- A text without the lines that are comments. -/
def withoutComments (text : String) : String :=
  Text.joinLines "\n" ((Text.lines text).filter fun line => !isComment line)

theorem isComment_comment (text : String) : isComment (Statement.comment text).text = true := by
  rw [isComment, Statement.text, String.toList_append, List.isPrefixOf_iff_prefix]
  exact List.prefix_append _ _

theorem commentText_comment (text : String) :
    commentText (Statement.comment text).text = text := by
  rw [commentText, Statement.text, String.toList_append]
  exact String.ofList_toList

/-- No statement of the code is a comment, or looks like one. -/
theorem not_isComment_of_isWellFormed {statement : Statement}
    (wellFormed : statement.isWellFormed = true) : isComment statement.text = false := by
  obtain ⟨code, _⟩ := readCode_text wellFormed
  rw [Bool.eq_false_iff]
  intro marked
  obtain ⟨rest, text⟩ := List.isPrefixOf_iff_prefix.1 marked
  have slash : '/' ∈ statement.text.toList := by
    rw [← text]
    exact List.mem_append_left _ (by decide)
  exact absurd (List.all_eq_true.1 code _ slash) (by decide)

section

variable {block : Block} (wellFormed : block.code.isWellFormed = true)

include wellFormed

theorem not_isComment_of_mem_code {line : String} (member : line ∈ block.code.map Statement.text) :
    isComment line = false := by
  obtain ⟨statement, inCode, rfl⟩ := List.mem_map.1 member
  exact not_isComment_of_isWellFormed (List.all_eq_true.1 wellFormed statement inCode)

theorem filter_isComment_lines :
    (block.lines true).filter isComment = [(Statement.comment block.command.text).text] := by
  have none : (block.code.map Statement.text).filter isComment = [] := by
    rw [List.filter_eq_nil_iff]
    intro line member
    rw [not_isComment_of_mem_code wellFormed member]
    exact Bool.false_ne_true
  rw [Block.lines, if_pos rfl, List.singleton_append,
    List.filter_cons_of_pos (isComment_comment _), none]

theorem filter_not_isComment_lines :
    ((block.lines true).filter fun line => !isComment line) = block.lines false := by
  have all : ((block.code.map Statement.text).filter fun line => !isComment line) =
      block.code.map Statement.text := by
    rw [List.filter_eq_self]
    intro line member
    rw [not_isComment_of_mem_code wellFormed member]
    rfl
  rw [Block.lines, if_pos rfl, List.singleton_append, List.filter_cons, isComment_comment,
    Bool.not_true, if_neg Bool.false_ne_true, all]
  rfl

end

namespace SourceUnit

/-- The text of a unit is put together from its lines. -/
theorem joinLines_outputLines (unit : SourceUnit) (annotate : Bool) :
    Text.joinLines "\n" (unit.compile.outputLines annotate) = unit.compile.render annotate := by
  apply String.toList_inj.1
  rw [toList_render, Text.joinLines, String.toList_ofList]
  rfl

theorem withoutComments_render (unit : SourceUnit) :
    withoutComments (unit.compile.render true) = unit.compile.render false := by
  have kept : ((unit.compile.outputLines true).filter fun line => !isComment line) =
      unit.compile.outputLines false := by
    rw [Compilation.outputLines, List.filter_flatMap]
    apply List.flatMap_congr
    intro block member
    exact filter_not_isComment_lines (isWellFormed_of_mem_blocks member)
  rw [withoutComments, lines_render, kept, joinLines_outputLines]

/-- The comments of a unit are the commands that have code. -/
theorem comments_render (unit : SourceUnit) :
    comments (unit.compile.render true) = (unit.items.map Prod.snd).map Command.text := by
  have marked : (unit.compile.outputLines true).filter isComment =
      unit.compile.blocks.toList.map fun block => (Statement.comment block.command.text).text := by
    rw [Compilation.outputLines, List.filter_flatMap, List.map_eq_flatMap]
    apply List.flatMap_congr
    intro block member
    exact filter_isComment_lines (isWellFormed_of_mem_blocks member)
  rw [comments, lines_render, marked, ← map_item_blocks_compile, List.map_map, List.map_map,
    List.map_map]
  apply List.map_congr_left
  intro block _
  exact commentText_comment block.command.text

end SourceUnit

/-! ## Commands as lines -/

namespace Line

theorem fault?_text (index : Nat) (command : Command) :
    (Line.mk index command.text).fault? = command.fault? := by
  rw [fault?, command_text]
  cases refused : command.refusal? with
  | some error => simp [Command.fault?, refused]
  | none => rfl

theorem item?_text (index : Nat) {command : Command} (clean : command.fault? = none) :
    (Line.mk index command.text).item? = some (index, command) := by
  have accepted : command.refusal? = none := (Option.or_eq_none_iff.1 clean).1
  apply item?_eq_some_iff.2
  refine ⟨command, ?_, clean, rfl⟩
  rw [command_text, accepted]
  rfl

/-- The items of lines with one command each are these commands. -/
theorem flatMap_item?_text {commands : List Command}
    (clean : ∀ command ∈ commands, command.fault? = none) :
    ((ofTexts (commands.map Command.text)).flatMap fun line => line.item?.toList).map Prod.snd =
      commands := by
  rw [ofTexts, List.zipIdx_map, List.map_map, List.flatMap_map, List.map_flatMap]
  calc
    _ = commands.zipIdx.flatMap fun entry => [entry.1] := by
      apply List.flatMap_congr
      intro entry member
      have written := item?_text entry.2 (clean entry.1 (List.fst_mem_of_mem_zipIdx member))
      simp [written]
    _ = commands := by rw [← List.map_eq_flatMap, List.zipIdx_map_fst]

end Line

/-- Where the commands come from does not matter for their code. -/
theorem Compiler.map_code_blocks {compiler : Compiler} {items items' : List (Nat × Command)}
    (same : items.map Prod.snd = items'.map Prod.snd) :
    (compiler.blocks items).map Block.code = (compiler.blocks items').map Block.code := by
  induction items generalizing compiler items' with
  | nil => rw [List.map_eq_nil_iff.1 same.symm]
  | cons item items ih =>
    cases items' with
    | nil => cases same
    | cons item' items' =>
      obtain ⟨command, rest⟩ := List.cons.inj same
      have next : compiler.after [item] = compiler.after [item'] := by
        rw [after, after, List.foldl_cons, List.foldl_cons, command]
      rw [blocks, blocks, List.map_cons, List.map_cons, next, ih rest, command]

namespace SourceUnit

theorem fault?_of_mem_items {unit : SourceUnit} {command : Command}
    (member : command ∈ unit.items.map Prod.snd) : command.fault? = none := by
  obtain ⟨item, inItems, rfl⟩ := List.mem_map.1 member
  obtain ⟨line, _, own⟩ := List.mem_flatMap.1 inItems
  obtain ⟨command, _, clean, rfl⟩ := Line.item?_eq_some_iff.1 (Option.mem_toList.1 own)
  exact clean

section

variable {unit decompiled : SourceUnit}
  (holds : decompiled.Holds unit.name (comments (unit.compile.render true)))

include holds

theorem lines_of_decompiled :
    decompiled.lines = Line.ofTexts ((unit.items.map Prod.snd).map Command.text) := by
  rw [holds.lines, comments_render]

theorem commands_of_decompiled : decompiled.items.map Prod.snd = unit.items.map Prod.snd := by
  rw [items, lines_of_decompiled holds]
  apply Line.flatMap_item?_text
  intro command member
  exact fault?_of_mem_items member

theorem hasError_of_decompiled : decompiled.compile.hasError = false := by
  rw [Bool.eq_false_iff]
  intro failed
  obtain ⟨line, member, error, faulty⟩ := hasError_compile_iff.1 failed
  rw [lines_of_decompiled holds] at member
  obtain ⟨command, inItems, text⟩ := List.mem_map.1 (Line.raw_mem_of_mem_ofTexts member)
  have written : line = ⟨line.index, command.text⟩ := by rw [text]
  rw [written, Line.fault?_text, fault?_of_mem_items inItems] at faulty
  cases faulty

theorem program_of_decompiled : decompiled.compile.program = unit.compile.program := by
  have codes := @Compiler.map_code_blocks (Compiler.start (some unit.name)) _ _
    (commands_of_decompiled holds)
  rw [Compilation.program, Compilation.program, decompiled.compile_eq, unit.compile_eq,
    holds.name_eq, List.flatMap_def, List.flatMap_def]
  exact congrArg List.flatten codes

theorem map_command_of_decompiled :
    decompiled.compile.blocks.map Block.command = unit.compile.blocks.map Block.command := by
  have commands := commands_of_decompiled holds
  rw [← map_item_blocks_compile, ← map_item_blocks_compile, List.map_map, List.map_map] at commands
  apply Array.toList_inj.1
  rw [Array.toList_map, Array.toList_map]
  exact commands

end

end SourceUnit

/-- **The comments are a source text for the code.** The text with comments is the one without them,
and a comment ahead of each block. A unit of the same name whose lines are the comments has no
errors, and it has the commands and the code of the unit that was printed, whatever else stood in the
source of that one. -/
theorem comments_decompile (unit : SourceUnit) :
    Text.joinLines "\n" (Text.lines (unit.compile.render true)) = unit.compile.render true ∧
    withoutComments (unit.compile.render true) = unit.compile.render false ∧
    (∃ decompiled : SourceUnit,
      decompiled.Holds unit.name (comments (unit.compile.render true))) ∧
    ∀ decompiled : SourceUnit, decompiled.Holds unit.name (comments (unit.compile.render true)) →
      decompiled.compile.hasError = false ∧
      decompiled.compile.program = unit.compile.program ∧
      decompiled.compile.blocks.map Block.command = unit.compile.blocks.map Block.command := by
  refine ⟨?_, unit.withoutComments_render, ?_, ?_⟩
  · rw [unit.lines_render, unit.joinLines_outputLines]
  · apply SourceUnit.exists_holds unit.isSymbol_name
    intro line member
    rw [unit.comments_render] at member
    obtain ⟨command, _, rfl⟩ := List.mem_map.1 member
    exact command.not_mem_text (by decide) (by decide)
  · intro decompiled holds
    exact ⟨SourceUnit.hasError_of_decompiled holds, SourceUnit.program_of_decompiled holds,
      SourceUnit.map_command_of_decompiled holds⟩

/-- A unit with a number that has leading zeros, an error, and a comparison. -/
def sampleNotes : SourceUnit :=
  ⟨"Main.vm", "Main", "push constant 007 // seven\nfoo\n  eq", isSymbol_main⟩

theorem comments_decompile_sampleNotes :
    sampleNotes.compile.hasError = true ∧
    comments (sampleNotes.compile.render true) = ["push constant 7", "eq"] ∧
    (SourceUnit.mk "" "Main" "push constant 7\neq" isSymbol_main).compile.hasError = false ∧
    (SourceUnit.mk "" "Main" "push constant 7\neq" isSymbol_main).compile.program =
      sampleNotes.compile.program := by
  have noted : comments (sampleNotes.compile.render true) = ["push constant 7", "eq"] := by
    rw [SourceUnit.comments_render]
    decide +kernel
  have holds : (SourceUnit.mk "" "Main" "push constant 7\neq" isSymbol_main).Holds
      sampleNotes.name (comments (sampleNotes.compile.render true)) := by
    rw [noted]
    exact ⟨rfl, by decide +kernel⟩
  obtain ⟨_, _, _, decompiles⟩ := comments_decompile sampleNotes
  obtain ⟨clean, program, _⟩ := decompiles _ holds
  exact ⟨by decide +kernel, noted, clean, program⟩

end Hack.VM
