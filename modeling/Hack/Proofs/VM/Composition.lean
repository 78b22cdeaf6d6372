import Hack.Proofs.Assembly.Renaming
import Hack.Proofs.Text.Lines
import Hack.Proofs.VM.Accounts

/-!
Compiling a unit in two parts, and without its errors.

The code of a command depends on the commands before it only through the number of comparisons among
them: after more comparisons it is the same code with higher numbers in its labels
(`Compiler.blocks_raise`). A line with an error leaves no trace in the code of others. So the
compilation of a unit is that of its first lines followed by that of the other lines, which are
compiled alone and then moved behind, and lines with errors can as well be empty
(`compile_compositional`).
-/

namespace Hack.VM

open Assembly

/-! ## Labels with higher numbers -/

/-- The number in a label of a comparison: what stands behind its mark. -/
def labelNumber (name : String) : Nat :=
  Text.decimalValue (name.toList.dropWhile (· != '$')).tail

/-- The name with a higher number, if it is a label of a comparison. -/
def raiseLabel (raise : Nat) (name : String) : String :=
  if name = (LabelPair.ofNumber (labelNumber name)).onTrue then
    (LabelPair.ofNumber (labelNumber name + raise)).onTrue
  else if name = (LabelPair.ofNumber (labelNumber name)).finish then
    (LabelPair.ofNumber (labelNumber name + raise)).finish
  else name

theorem labelNumber_of_mem_names {number : Nat} {name : String}
    (member : name ∈ (LabelPair.ofNumber number).names) : labelNumber name = number := by
  have digits : (name.toList.dropWhile (· != '$')).tail = Nat.toDigits 10 number := by
    rcases LabelPair.mem_names.1 member with rfl | rfl
    · simp [LabelPair.ofNumber]
    · simp [LabelPair.ofNumber]
  rw [labelNumber, digits, Text.decimalValue_toDigits]

theorem raiseLabel_onTrue (raise number : Nat) :
    raiseLabel raise (LabelPair.ofNumber number).onTrue =
      (LabelPair.ofNumber (number + raise)).onTrue := by
  have known : labelNumber (LabelPair.ofNumber number).onTrue = number :=
    labelNumber_of_mem_names (LabelPair.mem_names.2 (Or.inl rfl))
  rw [raiseLabel, known, if_pos rfl]

theorem raiseLabel_finish (raise number : Nat) :
    raiseLabel raise (LabelPair.ofNumber number).finish =
      (LabelPair.ofNumber (number + raise)).finish := by
  have known : labelNumber (LabelPair.ofNumber number).finish = number :=
    labelNumber_of_mem_names (LabelPair.mem_names.2 (Or.inr rfl))
  have differ := (LabelPair.onTrue_ne_finish number number).symm
  rw [raiseLabel, known, if_neg differ, if_pos rfl]

theorem raiseLabel_of_not_label (raise : Nat) {name : String} (plain : ¬ IsComparisonLabel name) :
    raiseLabel raise name = name := by
  have notTrue : name ≠ (LabelPair.ofNumber (labelNumber name)).onTrue :=
    fun same => plain ⟨_, Or.inl same⟩
  have notFinish : name ≠ (LabelPair.ofNumber (labelNumber name)).finish :=
    fun same => plain ⟨_, Or.inr same⟩
  rw [raiseLabel, if_neg notTrue, if_neg notFinish]

theorem raiseLabel_register (raise : Nat) (register : Register) :
    raiseLabel raise register.name = register.name := by
  apply raiseLabel_of_not_label
  intro label
  exact (marks_of_predefined? (predefined?_register register)).1 label.dollar_mem

example : raiseLabel 2 "END$9" = "END$11" := by decide

/-- The code of a comparison after so many more comparisons. -/
theorem rename_compare (raise : Nat) (jump : Jump) (number : Nat) :
    (Code.compare jump (.ofNumber number)).rename (raiseLabel raise) =
      Code.compare jump (.ofNumber (number + raise)) := by
  simp [Program.rename, Code.compare, Code.popOperands, Code.popD, Code.top, Statement.rename,
    Statement.register, Statement.symbol, Statement.set, Statement.branch, raiseLabel_onTrue,
    raiseLabel_finish, raiseLabel_register]

/-- Any other code has no label whose number could be raised. -/
theorem Reply.Possible.rename_of_plain {unit : Option String} {reply : Reply}
    (possible : reply.Possible unit) (plain : reply.command.isComparison = false) (raise : Nat) :
    reply.code.rename (raiseLabel raise) = reply.code := by
  have noLabels := possible.labelNames_of_plain plain
  apply Program.rename_eq_self
  · intro name member
    rw [noLabels] at member
    cases member
  · intro name member
    apply raiseLabel_of_not_label
    intro label
    have loads := List.count_pos_iff.2 member
    rw [possible.count_symbolNames label, noLabels] at loads
    cases loads

/-! ## Compilers with higher numbers -/

/-- The block so many lines further down, after so many more comparisons. -/
def Block.shift (lines raise : Nat) (block : Block) : Block :=
  ⟨block.index + lines, block.command, block.code.rename (raiseLabel raise)⟩

/-- The diagnostic so many lines further down. -/
def Diagnostic.shift (lines : Nat) (diagnostic : Diagnostic) : Diagnostic :=
  { diagnostic with index := diagnostic.index + lines }

namespace Compiler

/-- The compiler after so many more comparisons. -/
def raise (compiler : Compiler) (raise : Nat) : Compiler :=
  { compiler with labels := ⟨compiler.labels.count + raise⟩ }

theorem raise_raise (compiler : Compiler) (m n : Nat) :
    (compiler.raise m).raise n = compiler.raise (m + n) := by
  simp [Compiler.raise, Nat.add_assoc]

/-- One command: the numbers before it add to those in its code and to those behind it. -/
theorem command_raise (compiler : Compiler) (raise : Nat) (command : Command) :
    ((compiler.raise raise).command command).2 = (compiler.command command).2.raise raise ∧
      Reply.code ⟨command, ((compiler.raise raise).command command).1⟩ =
        (Reply.code ⟨command, (compiler.command command).1⟩).rename (raiseLabel raise) := by
  cases compares : command.isComparison with
  | true =>
    obtain ⟨jump, answer⟩ := exists_jump compares
    have later : (compiler.raise raise).labels.next =
        ⟨compiler.labels.next.count + raise⟩ := by
      simp [Compiler.raise, LabelCounter.next, Nat.add_right_comm]
    rw [answer, answer, later]
    exact ⟨rfl, (rename_compare raise jump _).symm⟩
  | false =>
    -- its code has no labels of comparisons, so it is renamed to itself
    have possible := compiler.possible_reply command
    have same := compiler.command_of_plain compares
    have later := (compiler.raise raise).command_of_plain compares
    rw [possible.rename_of_plain compares, same, later]
    exact ⟨rfl, rfl⟩

/-- The numbers count the comparisons. -/
theorem after_eq (compiler : Compiler) (items : List (Nat × Command)) :
    compiler.after items = compiler.raise (items.countP fun item => item.2.isComparison) := by
  induction items generalizing compiler with
  | nil => rfl
  | cons item items ih =>
    rw [after_cons, ih, List.countP_cons]
    cases compares : item.2.isComparison with
    | true =>
      obtain ⟨jump, answer⟩ := exists_jump compares
      have next : compiler.after [item] = compiler.raise 1 := congrArg Prod.snd (answer compiler)
      rw [next, if_pos rfl, raise_raise, Nat.add_comm]
    | false =>
      have same : compiler.after [item] = compiler :=
        congrArg Prod.snd (compiler.command_of_plain compares)
      rw [same, if_neg Bool.false_ne_true, Nat.add_zero]

/-- **The blocks after more comparisons,** further down in a unit, are the same blocks with higher
numbers. -/
theorem blocks_raise (compiler : Compiler) (lines raise : Nat) (items : List (Nat × Command)) :
    (compiler.raise raise).blocks (items.map fun item => (item.1 + lines, item.2)) =
      (compiler.blocks items).map (Block.shift lines raise) := by
  induction items generalizing compiler with
  | nil => rfl
  | cons item items ih =>
    obtain ⟨behind, code⟩ := compiler.command_raise raise item.2
    -- the rest begins at the compiler behind this item, which is raised as well
    have next : (compiler.raise raise).after [(item.1 + lines, item.2)] =
        (compiler.after [item]).raise raise := behind
    rw [List.map_cons, blocks, next, ih, code]
    rfl

end Compiler

/-! ## Lines further down -/

namespace Line

/-- The lines with given texts. -/
def ofTexts (texts : List String) : List Line := texts.zipIdx.map fun (raw, index) => ⟨index, raw⟩

/-- The line so many lines further down. -/
def shift (lines : Nat) (line : Line) : Line := { line with index := line.index + lines }

theorem ofTexts_append (front back : List String) :
    ofTexts (front ++ back) = ofTexts front ++ (ofTexts back).map (shift front.length) := by
  have later : back.zipIdx front.length =
      back.zipIdx.map fun entry => (entry.1, entry.2 + front.length) := by
    rw [List.zipIdx_eq_map_add]
    simp only [Nat.add_comm]
  rw [ofTexts, List.zipIdx_append, List.map_append, Nat.zero_add, later, List.map_map, ofTexts,
    ofTexts, List.map_map]
  rfl

theorem ofTexts_map (f : Line → String) (texts : List String) :
    ofTexts ((ofTexts texts).map f) = (ofTexts texts).map fun line => ⟨line.index, f line⟩ := by
  apply List.ext_getElem
  · simp [ofTexts]
  · intro index left right
    simp [ofTexts]

theorem raw_mem_of_mem_ofTexts {line : Line} {texts : List String} (member : line ∈ ofTexts texts) :
    line.raw ∈ texts := by
  obtain ⟨entry, inTexts, rfl⟩ := List.mem_map.1 member
  exact List.fst_mem_of_mem_zipIdx inTexts

/-- The place of a line does not matter for its command. -/
theorem command_shift (lines : Nat) (line : Line) : (line.shift lines).command = line.command := by
  have same : (line.shift lines).code = line.code := rfl
  rw [command, command, same]

theorem item?_shift (lines : Nat) (line : Line) :
    (line.shift lines).item? = line.item?.map fun item => (item.1 + lines, item.2) := by
  rw [item?, item?, fault?, fault?, command?, command?, command_shift]
  split
  · rfl
  · rw [Option.map_map]
    rfl

theorem diagnostics_shift (lines : Nat) (line : Line) :
    (line.shift lines).diagnostics = line.diagnostics.map (Diagnostic.shift lines) := by
  rw [diagnostics, diagnostics, fault?, fault?, command?, command?, command_shift, List.map_map]
  rfl

theorem command_empty (index : Nat) : (Line.mk index "").command = .ok none :=
  command_eq_none_iff.2 rfl

/-- An empty line in the place of a line with an error. -/
def mend (line : Line) : Line := ⟨line.index, if line.fault?.isSome then "" else line.raw⟩

theorem mend_of_clean {line : Line} (clean : line.fault? = none) : line.mend = line := by
  simp [mend, clean]

theorem mend_of_faulty {line : Line} {error : CommandError} (faulty : line.fault? = some error) :
    line.mend = ⟨line.index, ""⟩ := by
  simp [mend, faulty]

theorem fault?_mend (line : Line) : line.mend.fault? = none := by
  cases faulty : line.fault? with
  | none => rw [mend_of_clean faulty, faulty]
  | some error =>
    rw [mend_of_faulty faulty, fault?, command_empty]

theorem item?_mend (line : Line) : line.mend.item? = line.item? := by
  cases faulty : line.fault? with
  | none => rw [mend_of_clean faulty]
  | some error =>
    rw [mend_of_faulty faulty, (silent_of_isBlank rfl).1, item?, faulty]

end Line

namespace SourceUnit

/-- A unit with a given name and given lines. -/
structure Holds (unit : SourceUnit) (name : String) (lines : List String) : Prop where
  name_eq : unit.name = name
  lines_eq : Text.lines unit.source = lines

/-- There is a source text for any lines without line feeds. -/
theorem exists_holds {name : String} (valid : isSymbol name = true) {lines : List String}
    (unbroken : ∀ line ∈ lines, '\n' ∉ line.toList) :
    ∃ unit : SourceUnit, unit.Holds name lines :=
  ⟨⟨"", name, Text.joinLines "\r\n" lines, valid⟩, rfl, Text.lines_joinLines unbroken⟩

theorem Holds.lines {unit : SourceUnit} {name : String} {lines : List String}
    (holds : unit.Holds name lines) : unit.lines = Line.ofTexts lines := by
  rw [← holds.lines_eq]
  rfl

end SourceUnit

/-- The number of comparisons in a compilation. -/
def Compilation.comparisons (c : Compilation) : Nat :=
  c.blocks.countP fun block => block.command.isComparison

theorem SourceUnit.comparisons_compile (unit : SourceUnit) :
    unit.compile.comparisons = unit.items.countP fun item => item.2.isComparison := by
  rw [← map_item_blocks_compile, List.countP_map, Compilation.comparisons, ← Array.countP_toList]
  rfl

/-! ## Two parts -/

section

variable {unit first second : SourceUnit} {front back : List String}
  (whole : Text.lines unit.source = front ++ back)
  (isFirst : first.Holds unit.name front) (isSecond : second.Holds unit.name back)

include whole isFirst isSecond

theorem lines_of_parts :
    unit.lines = first.lines ++ second.lines.map (Line.shift front.length) := by
  rw [isFirst.lines, isSecond.lines, ← Line.ofTexts_append, ← whole]
  rfl

theorem items_of_parts :
    unit.items =
      first.items ++ second.items.map fun item => (item.1 + front.length, item.2) := by
  rw [SourceUnit.items, lines_of_parts whole isFirst isSecond, List.flatMap_append,
    List.flatMap_map, SourceUnit.items, SourceUnit.items, List.map_flatMap]
  simp only [Line.item?_shift, Option.toList_map]

theorem blocks_of_parts :
    unit.compile.blocks = first.compile.blocks ++
      second.compile.blocks.map (Block.shift front.length first.compile.comparisons) := by
  rw [first.comparisons_compile, unit.compile_eq, first.compile_eq, second.compile_eq,
    isFirst.name_eq, isSecond.name_eq, items_of_parts whole isFirst isSecond,
    Compiler.blocks_append, Compiler.after_eq, Compiler.blocks_raise]
  simp

theorem messages_of_parts :
    unit.compile.messages = first.compile.messages ++
      second.compile.messages.map (Diagnostic.shift front.length) := by
  rw [unit.compile_eq, first.compile_eq, second.compile_eq, lines_of_parts whole isFirst isSecond,
    List.flatMap_append, List.flatMap_map]
  simp [Line.diagnostics_shift, List.map_flatMap]

end

/-! ## Lines without errors -/

namespace SourceUnit

/-- The lines of a unit, an empty one in the place of each line with an error message. -/
def mendedLines (unit : SourceUnit) : List String :=
  unit.lines.map fun line =>
    if (unit.compile.messagesAt line.index).any Diagnostic.isError then "" else line.raw

theorem mendedLines_eq (unit : SourceUnit) :
    unit.mendedLines = unit.lines.map fun line => line.mend.raw := by
  apply List.map_congr_left
  intro line member
  have reported : (unit.compile.messagesAt line.index).any Diagnostic.isError =
      line.fault?.isSome := by
    rw [messagesAt_eq member, Line.any_isError_diagnostics]
  rw [reported, Line.mend]

theorem unbroken_mendedLines (unit : SourceUnit) :
    ∀ line ∈ unit.mendedLines, '\n' ∉ line.toList := by
  intro text member
  obtain ⟨line, inUnit, rfl⟩ := List.mem_map.1 member
  split
  · exact List.not_mem_nil
  · exact Text.not_mem_of_mem_lines (Line.raw_mem_of_mem_ofTexts inUnit)

section

variable {unit mended : SourceUnit} (holds : mended.Holds unit.name unit.mendedLines)

include holds

theorem lines_of_mended : mended.lines = unit.lines.map Line.mend := by
  have own : unit.lines = Line.ofTexts (Text.lines unit.source) := rfl
  rw [holds.lines, mendedLines_eq, own, Line.ofTexts_map]
  apply List.map_congr_left
  intro line _
  rw [Line.mend]

theorem items_of_mended : mended.items = unit.items := by
  rw [items, lines_of_mended holds, List.flatMap_map, items]
  simp only [Line.item?_mend]

theorem compile_of_mended :
    mended.compile.hasError = false ∧ mended.compile.blocks = unit.compile.blocks := by
  constructor
  · rw [Bool.eq_false_iff]
    intro failed
    obtain ⟨line, member, error, faulty⟩ := hasError_compile_iff.1 failed
    rw [lines_of_mended holds] at member
    obtain ⟨origin, _, rfl⟩ := List.mem_map.1 member
    rw [Line.fault?_mend] at faulty
    cases faulty
  · rw [mended.compile_eq, unit.compile_eq, holds.name_eq, items_of_mended holds]

end

end SourceUnit

/-- **Errors stay with their lines, and units can be cut.** If the lines with error messages are
replaced by empty ones, no error is left and the blocks are the same. Wherever the lines of a unit
are cut, the blocks and the diagnostics are those of the front followed by those of the back, which
is compiled alone: its lines are counted on from the front, and so are the labels of its
comparisons. -/
theorem compile_compositional (unit : SourceUnit) :
    (∃ mended : SourceUnit, mended.Holds unit.name unit.mendedLines) ∧
    (∀ mended : SourceUnit, mended.Holds unit.name unit.mendedLines →
      mended.compile.hasError = false ∧ mended.compile.blocks = unit.compile.blocks) ∧
    ∀ front back, Text.lines unit.source = front ++ back →
      (∃ first : SourceUnit, first.Holds unit.name front) ∧
      (∃ second : SourceUnit, second.Holds unit.name back) ∧
      ∀ first second : SourceUnit, first.Holds unit.name front → second.Holds unit.name back →
        unit.compile.blocks = first.compile.blocks ++
          second.compile.blocks.map (Block.shift front.length first.compile.comparisons) ∧
        unit.compile.messages = first.compile.messages ++
          second.compile.messages.map (Diagnostic.shift front.length) := by
  refine ⟨?_, ?_, ?_⟩
  · apply SourceUnit.exists_holds unit.isSymbol_name
    exact unit.unbroken_mendedLines
  · intro mended holds
    exact SourceUnit.compile_of_mended holds
  · intro front back whole
    have unbroken : ∀ line ∈ front ++ back, '\n' ∉ line.toList := by
      intro line member
      rw [← whole] at member
      exact Text.not_mem_of_mem_lines member
    refine ⟨?_, ?_, ?_⟩
    · apply SourceUnit.exists_holds unit.isSymbol_name
      intro line member
      exact unbroken line (List.mem_append_left _ member)
    · apply SourceUnit.exists_holds unit.isSymbol_name
      intro line member
      exact unbroken line (List.mem_append_right _ member)
    · intro first second isFirst isSecond
      exact ⟨blocks_of_parts whole isFirst isSecond, messages_of_parts whole isFirst isSecond⟩

/-- A unit with an error between two comparisons. -/
def sampleCut : SourceUnit := ⟨"Main.vm", "Main", "eq\nfoo\npush static 0\nlt", isSymbol_main⟩

/-- The second comparison has the number one in its own part. -/
theorem compile_compositional_sampleCut :
    Text.lines sampleCut.source = ["eq", "foo"] ++ ["push static 0", "lt"] ∧
    sampleCut.mendedLines = ["eq", "", "push static 0", "lt"] ∧
    (SourceUnit.mk "" "Main" "eq\n\npush static 0\nlt" isSymbol_main).compile.blocks =
      sampleCut.compile.blocks ∧
    sampleCut.compile.blocks =
      (SourceUnit.mk "" "Main" "eq\nfoo" isSymbol_main).compile.blocks ++
        (SourceUnit.mk "" "Main" "push static 0\nlt" isSymbol_main).compile.blocks.map
          (Block.shift 2 1) := by
  have whole : Text.lines sampleCut.source = ["eq", "foo"] ++ ["push static 0", "lt"] := by
    decide +kernel
  have mended : sampleCut.mendedLines = ["eq", "", "push static 0", "lt"] := by decide +kernel
  obtain ⟨_, withoutErrors, parts⟩ := compile_compositional sampleCut
  obtain ⟨_, _, together⟩ := parts _ _ whole
  have holds : (SourceUnit.mk "" "Main" "eq\n\npush static 0\nlt" isSymbol_main).Holds
      sampleCut.name sampleCut.mendedLines := by
    rw [mended]
    exact ⟨rfl, by decide +kernel⟩
  have isFirst : (SourceUnit.mk "" "Main" "eq\nfoo" isSymbol_main).Holds
      sampleCut.name ["eq", "foo"] := ⟨rfl, by decide +kernel⟩
  have isSecond : (SourceUnit.mk "" "Main" "push static 0\nlt" isSymbol_main).Holds
      sampleCut.name ["push static 0", "lt"] := ⟨rfl, by decide +kernel⟩
  have one : (SourceUnit.mk "" "Main" "eq\nfoo" isSymbol_main).compile.comparisons = 1 := by
    decide +kernel
  have blocks := (together _ _ isFirst isSecond).1
  rw [one] at blocks
  exact ⟨whole, mended, (withoutErrors _ holds).2, blocks⟩

end Hack.VM
