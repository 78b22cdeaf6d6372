import Hack.Proofs.Assembly.Printing
import Hack.Proofs.Rom.Reading
import Hack.Proofs.VM.Acceptance

/-!
The text of compiled code.

Compiled code has only statements whose text is read back (`isWellFormed_compile`): values that were
checked to fit, and symbols made of the name of the unit or of a label and of digits. Its comments
are read as blank lines. So the text of a compiled unit, with comments or without, means what its
code means (`ofText_render`).
-/

namespace Hack.VM

open Assembly

/-! ## Well-formed code -/

theorem isSymbol_append_toString {front : String} (symbol : isSymbol front = true) (n : Nat) :
    isSymbol (front ++ toString n) = true := by
  refine isSymbol_append symbol ?_
  rw [Nat.toString_eq_repr, Nat.toList_repr]
  exact all_isSymbolChar_toDigits n

theorem isSymbol_staticSymbol {unit : String} (symbol : isSymbol unit = true) (index : Word) :
    isSymbol (staticSymbol unit index) = true :=
  isSymbol_append_toString (isSymbol_append symbol (by decide)) index.toNat

theorem isSymbol_label {number : Nat} {name : String}
    (member : name ∈ (LabelPair.ofNumber number).names) : isSymbol name = true := by
  rcases LabelPair.mem_names.1 member with rfl | rfl
  · exact isSymbol_append_toString (by decide) number
  · exact isSymbol_append_toString (by decide) number

theorem isWellFormed_value {n : Nat} (fits : n ≤ Word.maxLiteral) :
    (Statement.value n).isWellFormed = true := by
  have small : n < 2 ^ 16 := Nat.lt_of_le_of_lt fits (by decide)
  refine decide_eq_true ?_
  rw [BitVec.toNat_ofNat, Nat.mod_eq_of_lt small]
  exact fits

/-- Whether the statement that reaches a cell is well-formed. -/
def Access.isWellFormed : Access → Bool
  | .literal statement | .indirect _ statement | .direct statement => statement.isWellFormed

theorem isWellFormed_loadOffset {base : Nat} {index : Word} {f : Statement → Access}
    {reached : Access} (keeps : ∀ statement, (f statement).isWellFormed = statement.isWellFormed)
    (granted : (loadOffset base index).map f = .ok reached) : reached.isWellFormed = true := by
  unfold loadOffset at granted
  split at granted
  · next fits =>
    cases granted
    rw [keeps]
    exact isWellFormed_value fits
  · cases granted

/-- The bound of a segment is checked before a value is loaded. -/
theorem isWellFormed_access {unit : String} (symbol : isSymbol unit = true) {index : Word}
    {segment : Segment} {reached : Access}
    (granted : access (some unit) index segment = .ok reached) : reached.isWellFormed = true := by
  cases segment with
  | constant =>
    rw [access] at granted
    split at granted
    · next fits =>
      cases granted
      exact isWellFormed_value fits
    · cases granted
  | locals | arguments | this | that | temp | pointer =>
    exact isWellFormed_loadOffset (fun _ => rfl) granted
  | statics =>
    cases granted
    exact isSymbol_staticSymbol symbol index

theorem isWellFormed_push (reached : Access) :
    (Code.push reached).isWellFormed = reached.isWellFormed := by
  cases reached with
  | literal value => exact Bool.and_true _
  | indirect base offset => cases base <;> exact Bool.and_true _
  | direct address => exact Bool.and_true _

theorem isWellFormed_pop {reached : Access} {code : Program} (popped : Code.pop reached = .ok code) :
    code.isWellFormed = reached.isWellFormed := by
  cases reached with
  | literal value => cases popped
  | indirect base offset =>
    cases popped
    cases base <;> exact Bool.and_true _
  | direct address =>
    cases popped
    exact Bool.and_true _

theorem isWellFormed_compare (jump : Jump) (number : Nat) :
    (Code.compare jump (.ofNumber number)).isWellFormed = true := by
  have symbols : ∀ name ∈ (LabelPair.ofNumber number).names, isSymbol name = true :=
    fun name => isSymbol_label
  simp only [LabelPair.names, List.forall_mem_cons] at symbols
  obtain ⟨onTrue, finish, _⟩ := symbols
  -- each of the two labels is loaded and defined
  show (isSymbol (LabelPair.ofNumber number).onTrue &&
    (isSymbol (LabelPair.ofNumber number).finish &&
      (isSymbol (LabelPair.ofNumber number).onTrue &&
        (isSymbol (LabelPair.ofNumber number).finish && true)))) = true
  rw [onTrue, finish]
  rfl

theorem isWellFormed_move {unit : String} (symbol : isSymbol unit = true) {direction : Direction}
    {segment : Segment} {index : Word} {code : Program}
    (compiled : Code.move (some unit) direction segment index = .ok code) :
    code.isWellFormed = true := by
  obtain ⟨reached, granted, ⟨rfl, rfl⟩ | ⟨rfl, _, popped⟩⟩ := Code.move_eq_ok_iff.1 compiled
  · rw [isWellFormed_push]
    exact isWellFormed_access symbol granted
  · rw [isWellFormed_pop popped]
    exact isWellFormed_access symbol granted

theorem Reply.Possible.isWellFormed {unit : String} {reply : Reply}
    (possible : reply.Possible (some unit)) (symbol : isSymbol unit = true) :
    reply.code.isWellFormed = true := by
  cases possible with
  | comparison jump number compares => exact isWellFormed_compare jump number
  | @plain command plain =>
    unfold Reply.code
    cases answer : ((Compiler.start (some unit)).command command).1 with
    | error error => rfl
    | ok code =>
      cases command with
      | operate op =>
        cases op with
        | eq | gt | lt => cases plain
        | add | sub | neg | and | or | not =>
          cases answer
          rfl
      | move direction segment index => exact isWellFormed_move symbol answer

/-- Compiled code is well-formed, whatever lines the unit has. -/
theorem isWellFormed_compile (unit : SourceUnit) : unit.compile.program.isWellFormed = true := by
  rw [program_compile, Session.code, Program.isWellFormed, List.all_flatMap]
  refine List.all_eq_true.2 fun reply known => ?_
  exact (SourceUnit.possible_of_session known).isWellFormed unit.isSymbol_name

/-! ## Lines of the output -/

/-- The lines for a block: its command as a comment if that is wanted, then its code. -/
def Block.lines (annotate : Bool) (block : Block) : List String :=
  (if annotate then [(Statement.comment block.command.text).text] else []) ++
    block.code.map Statement.text

/-- The lines of a compilation. -/
def Compilation.outputLines (annotate : Bool) (c : Compilation) : List String :=
  c.blocks.toList.flatMap (Block.lines annotate)

theorem toList_render_block (annotate : Bool) (block : Block) :
    (Compilation.Block.render annotate block).toList =
      (block.lines annotate).flatMap fun line => line.toList ++ ['\n'] := by
  rw [Compilation.Block.render, Block.lines, String.toList_append, Program.toList_text,
    List.flatMap_append]
  cases annotate with
  | false => rfl
  | true =>
    rw [if_pos rfl, if_pos rfl, String.toList_append, List.flatMap_singleton]
    rfl

theorem toList_render (annotate : Bool) (c : Compilation) :
    (c.render annotate).toList =
      (c.outputLines annotate).flatMap fun line => line.toList ++ ['\n'] := by
  suffices behind : ∀ (start : String) (blocks : List Block),
      (blocks.foldl (fun text block => text ++ Compilation.Block.render annotate block)
          start).toList =
        start.toList ++ (blocks.flatMap (Block.lines annotate)).flatMap fun line =>
          line.toList ++ ['\n'] by
    rw [Compilation.render, ← Array.foldl_toList, behind]
    rfl
  intro start blocks
  induction blocks generalizing start with
  | nil => exact (List.append_nil _).symm
  | cons block blocks ih =>
    rw [List.foldl_cons, ih, String.toList_append, toList_render_block, List.flatMap_cons,
      List.flatMap_append, List.append_assoc]

theorem Command.mem_text_cases {command : Command} {c : Char}
    (member : c ∈ command.text.toList) : c = ' ' ∨ isSymbolChar c = true := by
  have inWord {word : String} (letters : word.toList.all isSymbolChar = true)
      (member : c ∈ word.toList) : c = ' ' ∨ isSymbolChar c = true :=
    Or.inr (List.all_eq_true.1 letters c member)
  cases command with
  | operate op => exact inWord (by cases op <;> decide) member
  | move direction segment index =>
    simp only [text, String.toList_append, List.mem_append] at member
    rcases member with (((inDirection | blank) | inSegment) | blank) | digit
    · exact inWord (by cases direction <;> decide) inDirection
    · exact Or.inl (List.mem_singleton.1 blank)
    · exact inWord (by cases segment <;> decide) inSegment
    · exact Or.inl (List.mem_singleton.1 blank)
    · rw [Nat.toString_eq_repr, Nat.toList_repr] at digit
      exact Or.inr (List.all_eq_true.1 (all_isSymbolChar_toDigits _) c digit)

theorem Command.not_mem_text (command : Command) {c : Char} (noBlank : c ≠ ' ')
    (noLetter : isSymbolChar c = false) : c ∉ command.text.toList := by
  intro member
  rcases mem_text_cases member with blank | letter
  · exact noBlank blank
  · rw [noLetter] at letter
    cases letter

theorem isLine_comment (command : Command) :
    Text.IsLine (Statement.comment command.text).text.toList := by
  rw [Statement.text, String.toList_append]
  constructor
  · rw [List.mem_append, not_or]
    exact ⟨by decide, command.not_mem_text (by decide) (by decide)⟩
  · intro last
    rcases List.mem_append.1 (List.mem_of_getLast? last) with inMark | inText
    · exact absurd inMark (by decide)
    · exact command.not_mem_text (by decide) (by decide) inText

theorem readLine_comment (text : String) : readLine (Statement.comment text).text = .ok none := by
  rw [readLine, codeOf, Statement.text, String.toList_append]
  rfl

section

variable {c : Compilation} (wellFormed : ∀ block ∈ c.blocks.toList, block.code.isWellFormed = true)
  (annotate : Bool)

include wellFormed

/-- A compilation with well-formed code is rendered to its lines. -/
theorem lines_render : Text.lines (c.render annotate) = c.outputLines annotate := by
  rw [Text.lines, toList_render]
  refine Text.linesFrom_flatMap fun line member => ?_
  obtain ⟨block, inBlocks, inLines⟩ := List.mem_flatMap.1 member
  rcases List.mem_append.1 inLines with comment | code
  · split at comment
    · rw [List.mem_singleton.1 comment]
      exact isLine_comment block.command
    · cases comment
  · obtain ⟨statement, inCode, rfl⟩ := List.mem_map.1 code
    exact (readLine_text (List.all_eq_true.1 (wellFormed block inBlocks) _ inCode)).1

/-- The lines are read as the code, the comments as blank lines. -/
theorem reads_outputLines : Reads (c.outputLines annotate) c.program := by
  unfold Compilation.outputLines Compilation.program
  generalize c.blocks.toList = blocks at wellFormed ⊢
  induction blocks with
  | nil => exact .nil
  | cons block blocks ih =>
    have code : Reads (block.code.map Statement.text) block.code := by
      refine reads_map_text fun statement member => ?_
      exact (readLine_text (List.all_eq_true.1 (wellFormed block List.mem_cons_self) _ member)).2
    have lines : Reads (block.lines annotate) block.code := by
      cases annotate with
      | false => exact code
      | true => exact .blank (readLine_comment _) code
    rw [List.flatMap_cons, List.flatMap_cons]
    exact lines.append (ih fun other member => wellFormed other (.tail _ member))

end

theorem SourceUnit.isWellFormed_of_mem_blocks {unit : SourceUnit} {block : Block}
    (member : block ∈ unit.compile.blocks.toList) : block.code.isWellFormed = true := by
  have all := isWellFormed_compile unit
  rw [Compilation.program, Program.isWellFormed, List.all_flatMap] at all
  exact List.all_eq_true.1 all block member

theorem SourceUnit.lines_render (unit : SourceUnit) (annotate : Bool) :
    Text.lines (unit.compile.render annotate) = unit.compile.outputLines annotate := by
  apply VM.lines_render
  intro block member
  exact isWellFormed_of_mem_blocks member

theorem reads_render (unit : SourceUnit) (annotate : Bool) :
    Reads (Text.lines (unit.compile.render annotate)) unit.compile.program := by
  rw [unit.lines_render]
  apply reads_outputLines
  intro block member
  exact SourceUnit.isWellFormed_of_mem_blocks member

/-- **The text of a unit means what its code means,** with comments and without, whatever lines the
unit has. Each line of the text can be read. The text is assembled to the same program as the code,
or both fail because of too many words or too many variables. -/
theorem ofText_render (unit : SourceUnit) (path : String) :
    (∀ annotate, Rom.ofText path (unit.compile.render annotate) =
      Rom.assemble unit.compile.program) ∧
    (∀ annotate, ∀ line ∈ Text.lines (unit.compile.render annotate),
      ∃ content, readLine line = .ok content) ∧
    ((∃ rom, Rom.assemble unit.compile.program = .ok rom) ∨
      Rom.assemble unit.compile.program = .error .romOverflow ∨
      ∃ name, Rom.assemble unit.compile.program = .error (.variableOverflow name)) := by
  refine ⟨?_, ?_, ?_⟩
  · intro annotate
    rw [Rom.ofText, Rom.readProgram_of_reads path (reads_render unit annotate)]
  · intro annotate line member
    exact (reads_render unit annotate).readLine_of_mem member
  · cases result : Rom.assemble unit.compile.program with
    | ok rom => exact Or.inl ⟨rom, rfl⟩
    | error error =>
      refine Or.inr ?_
      have fault := Rom.assemble_eq_error_iff.1 result
      cases fault with
      | duplicateLabel repeated => exact absurd result (not_duplicateLabel_compile unit _)
      | romOverflow distinct long => exact Or.inl rfl
      | variableOverflow distinct fits overflow => exact Or.inr ⟨_, rfl⟩

end Hack.VM
