import Hack.Proofs.Rom.Resolution
import Hack.Proofs.VM.Correctness
import Hack.Proofs.VM.Sessions

/-!
The static variables of linked units.

A static variable belongs to the unit whose name stands in its symbol, and no label and no fixed
meaning hides that symbol. So the variables of linked units are their static variables and nothing
else (`variableNames_linkedProgram`), and every use of one loads the cell that the assembled
program keeps for it (`statics_private_to_units`).
-/

namespace Hack.VM

open Assembly

/-- The static variables that units use, each with the name of its unit, in the order of their
uses. -/
def staticUses (units : List SourceUnit) : List (String × Word) :=
  units.flatMap fun unit => (unit.commands.flatMap Command.statics).map fun index =>
    (unit.name, index)

/-- The symbol of a static variable with the name of its unit. -/
def useSymbol (use : String × Word) : String := staticSymbol use.1 use.2

theorem useSymbol_inj {use other : String × Word} (same : useSymbol use = useSymbol other) :
    use = other := by
  obtain ⟨units, indexes⟩ := staticSymbol_inj same
  exact Prod.ext units indexes

theorem map_useSymbol_staticUses (units : List SourceUnit) :
    (staticUses units).map useSymbol = units.flatMap fun unit =>
      (unit.commands.flatMap Command.statics).map (staticSymbol unit.name) := by
  simp only [staticUses, List.map_flatMap, List.map_map]
  rfl

theorem Command.statics_of_isComparison {command : Command}
    (compares : command.isComparison = true) : command.statics = [] := by
  cases command with
  | operate op => rfl
  | move direction segment index => cases compares

/-- Moves of static variables are compiled in every unit, whatever their index. -/
theorem Command.statics_of_failed {unit : String} {command : Command} {error : CommandError}
    (failed : ((Compiler.start (some unit)).command command).1 = .error error) :
    command.statics = [] := by
  cases command with
  | operate op => rfl
  | move direction segment index =>
    cases segment with
    | statics => cases direction <;> cases failed
    | _ => rfl

/-! ## The variables of linked units -/

/-- Apart from names with a fixed meaning, a reply loads its labels and its static variable. -/
theorem Reply.Possible.filter_symbolNames {unit : String} {reply : Reply}
    (possible : reply.Possible (some unit)) :
    reply.code.symbolNames.filter isUnfixed =
      reply.code.labelNames ++ reply.command.statics.map (staticSymbol unit) := by
  cases possible with
  | comparison jump number compares =>
    rw [Command.statics_of_isComparison compares, List.map_nil, List.append_nil]
    exact filter_symbolNames_compare jump number
  | @plain command _ =>
    unfold Reply.code
    cases answer : ((Compiler.start (some unit)).command command).1 with
    | error error =>
      rw [Command.statics_of_failed answer]
      rfl
    | ok code => exact (Compiles.of_command rfl (Prod.ext answer rfl)).filter_symbolNames

/-- The labels of a program may hide those of a reply, but never its static variable. -/
theorem Reply.Possible.filter_isVariable {unit : String} {reply : Reply} {program : Program}
    (possible : reply.Possible (some unit))
    (inside : ∀ name ∈ reply.code.labelNames, name ∈ program.labelNames)
    (labels : ∀ name ∈ program.labelNames, IsComparisonLabel name) :
    reply.code.symbolNames.filter program.isVariable =
      reply.command.statics.map (staticSymbol unit) := by
  have hidden : reply.code.labelNames.filter (!program.labelNames.contains ·) = [] := by
    refine List.filter_eq_nil_iff.2 fun name member => ?_
    simpa using inside name member
  have shown : (reply.command.statics.map (staticSymbol unit)).filter
      (!program.labelNames.contains ·) = reply.command.statics.map (staticSymbol unit) := by
    refine List.filter_eq_self.2 fun name member => ?_
    obtain ⟨index, _, rfl⟩ := List.mem_map.1 member
    simpa using mt (labels _) (not_isComparisonLabel_staticSymbol unit index)
  calc reply.code.symbolNames.filter program.isVariable
    _ = (reply.code.symbolNames.filter isUnfixed).filter (!program.labelNames.contains ·) :=
      List.filter_filter.symm
    _ = reply.command.statics.map (staticSymbol unit) := by
      rw [possible.filter_symbolNames, List.filter_append, hidden, shown, List.nil_append]

theorem SourceUnit.filter_isVariable (unit : SourceUnit) {program : Program}
    (inside : ∀ name ∈ unit.compile.program.labelNames, name ∈ program.labelNames)
    (labels : ∀ name ∈ program.labelNames, IsComparisonLabel name) :
    unit.compile.program.symbolNames.filter program.isVariable =
      (unit.commands.flatMap Command.statics).map (staticSymbol unit.name) := by
  have ofReply : ∀ reply ∈ unit.session.replies,
      reply.code.symbolNames.filter program.isVariable =
        reply.command.statics.map (staticSymbol unit.name) := by
    intro reply known
    refine (SourceUnit.possible_of_session known).filter_isVariable (fun name member => ?_) labels
    refine inside name ?_
    rw [program_compile, Session.code, Program.labelNames, List.filterMap_flatMap]
    exact List.mem_flatMap.2 ⟨reply, known, member⟩
  rw [program_compile, Session.code, Program.symbolNames_flatMap, List.filter_flatMap,
    ← unit.map_command_session, List.flatMap_map, List.map_flatMap, List.flatMap_def,
    List.flatMap_def]
  exact congrArg List.flatten (List.map_congr_left ofReply)

/-- The variables of linked units are the static variables that they use, in the order of their
first uses. -/
theorem variableNames_linkedProgram (units : List SourceUnit) :
    (linkedProgram units).variableNames = (staticUses units).eraseDups.map useSymbol := by
  have ofUnit : ∀ unit ∈ units,
      unit.compile.program.symbolNames.filter (linkedProgram units).isVariable =
        (unit.commands.flatMap Command.statics).map (staticSymbol unit.name) := by
    intro unit linked
    refine unit.filter_isVariable (fun name member => ?_) fun name member => ?_
    · rw [Program.mem_labelNames] at member ⊢
      exact List.mem_flatMap.2 ⟨unit, linked, member⟩
    · exact isComparisonLabel_of_mem_linkedProgram (Program.mem_labelNames.1 member)
  have uses : (linkedProgram units).symbolNames.filter (linkedProgram units).isVariable =
      (staticUses units).map useSymbol := by
    rw [map_useSymbol_staticUses, List.flatMap_def, ← List.map_congr_left ofUnit,
      ← List.flatMap_def, ← List.filter_flatMap, ← Program.symbolNames_flatMap, linkedProgram]
  rw [Program.variableNames, Program.variablesIn, uses, eraseDups_map useSymbol_inj]

/-! ## Places of commands -/

/-- The code of a command stands behind the code of the commands before it. -/
theorem exists_code_of_command {before after : List SourceUnit} {unit : SourceUnit}
    {done rest : List Command} {command : Command}
    (clean : ∀ other ∈ before ++ unit :: after, other.compile.hasError = false)
    (commands : unit.commands = done ++ command :: rest) :
    ∃ front code back : Program, linkedProgram (before ++ unit :: after) = front ++ code ++ back ∧
      Compiles unit.name command code ∧
      front.wordCount = Command.totalWords (before.flatMap SourceUnit.commands ++ done) := by
  have cleanBefore : ∀ other ∈ before, other.compile.hasError = false := fun other member =>
    clean other (List.mem_append_left _ member)
  have split := map_command_of_compile (clean unit (by simp))
  rw [commands, List.map_eq_append_iff] at split
  obtain ⟨front, behind, blocks, doneBlocks, behindCommands⟩ := split
  obtain ⟨block, back, rfl, rfl, _⟩ := List.map_eq_cons_iff.1 behindCommands
  have compiled : ∀ other ∈ front ++ block :: back,
      Compiles unit.name other.command other.code := by
    rw [← blocks]
    exact compiles_of_mem_toList
  refine ⟨linkedProgram before ++ front.flatMap Block.code, block.code,
    back.flatMap Block.code ++ linkedProgram after, ?_, compiled block (by simp), ?_⟩
  · rw [linkedProgram_append, linkedProgram_cons, Compilation.program, blocks]
    simp only [List.flatMap_append, List.flatMap_cons, List.append_assoc]
  · rw [Program.wordCount_append, wordCount_linkedProgram cleanBefore,
      wordCount_flatMap_code fun other member => compiled other (List.mem_append_left _ member),
      doneBlocks, Command.totalWords_append]

/-- The number of words before the load of the cell, in the code of a move of a static variable. -/
def Direction.wordsBeforeCell : Direction → Nat
  | .push => 0
  | .pop => 3

theorem Compiles.exists_symbol_at {unit : String} {direction : Direction} {index : Word}
    {code : Program} (compiled : Compiles unit (.move direction .statics index) code) :
    ∃ front back : Program, code = front ++ .symbol (staticSymbol unit index) :: back ∧
      front.wordCount = direction.wordsBeforeCell := by
  cases compiled with
  | push reached =>
    cases reached with
    | indirect known => cases known
    | statics => exact ⟨[], _, rfl, rfl⟩
  | pop reached popped =>
    cases reached with
    | indirect known => cases known
    | statics =>
      cases popped
      exact ⟨Code.popD, _, rfl, rfl⟩

/-! ## Cells -/

section

variable {units : List SourceUnit} {rom : Rom}
  (clean : ∀ unit ∈ units, unit.compile.hasError = false)
  (assembled : Rom.assemble (linkedProgram units) = .ok rom)

include assembled

theorem addressOf?_staticSymbol (unit : String) (index : Word) :
    rom.label? (staticSymbol unit index) = none ∧
      rom.addressOf? (staticSymbol unit index) = rom.cellOf? (staticSymbol unit index) := by
  refine ⟨?_, ?_⟩
  · cases found : rom.label? (staticSymbol unit index) with
    | none => rfl
    | some address =>
      have label := isComparisonLabel_of_mem_linkedProgram (Rom.mem_of_label? assembled found)
      exact absurd label (not_isComparisonLabel_staticSymbol unit index)
  · have names : rom.Conventional :=
      conventional_of_assemble assembled fun _ => isComparisonLabel_of_mem_linkedProgram
    exact names.statics unit index

/-- A static variable has a cell between the registers and the stack. -/
theorem exists_cell_of_use {use : String × Word} (member : use ∈ staticUses units) :
    ∃ cell, rom.cellOf? (useSymbol use) = some cell ∧ 16 ≤ cell ∧ cell ≤ 255 := by
  have known : useSymbol use ∈ (linkedProgram units).variableNames := by
    rw [variableNames_linkedProgram]
    exact List.mem_map.2 ⟨use, List.mem_eraseDups.2 member, rfl⟩
  obtain ⟨cell, found⟩ := (Rom.exists_cell_iff assembled).2 known
  obtain ⟨low, high⟩ := (Rom.exists_variable_iff assembled).1 ⟨_, found⟩
  have few := (Rom.variables_of_assemble assembled).2
  have start : MemoryMap.firstVariable = 16 := rfl
  have cells : Program.variableCells = 240 := rfl
  exact ⟨cell, found, by omega, by omega⟩

include clean

/-- The code of a move of a static variable loads the variable's cell. -/
theorem get?_of_use {before after : List SourceUnit} {unit : SourceUnit} {done rest : List Command}
    {direction : Direction} {index : Word} (linked : units = before ++ unit :: after)
    (commands : unit.commands = done ++ .move direction .statics index :: rest) :
    ∃ cell, rom.cellOf? (staticSymbol unit.name index) = some cell ∧
      rom.get? (Command.totalWords (before.flatMap SourceUnit.commands ++ done) +
        direction.wordsBeforeCell) = some (.load (.ofNat 16 cell)) := by
  subst linked
  obtain ⟨front, code, back, placed, compiled, words⟩ := exists_code_of_command clean commands
  obtain ⟨ahead, behind, rfl, offset⟩ := compiled.exists_symbol_at
  have split : linkedProgram (before ++ unit :: after) =
      (front ++ ahead) ++ .symbol (staticSymbol unit.name index) :: (behind ++ back) := by
    rw [placed]
    simp only [List.append_assoc, List.cons_append]
  obtain ⟨instr, linked, fetched⟩ := Rom.get?_of_assemble assembled split rfl
  obtain ⟨cell, found, rfl⟩ := Option.map_eq_some_iff.1 linked
  rw [(addressOf?_staticSymbol assembled unit.name index).2] at found
  rw [Program.wordCount_append, words, offset] at fetched
  exact ⟨cell, found, fetched⟩

end

/-- **Static variables are private to their unit.** In linked units, whatever valid names these
have, different static variables have different cells, all of them between the registers and the
stack. Wherever a command moves a static variable, its code loads that variable's cell. The symbol
of a static variable is never a label and has no fixed meaning. -/
theorem statics_private_to_units {units : List SourceUnit} {rom : Rom}
    (clean : ∀ unit ∈ units, unit.compile.hasError = false)
    (assembled : Rom.assemble (linkedProgram units) = .ok rom) :
    (∀ name index, (name, index) ∈ staticUses units →
      ∃ cell, rom.cellOf? (staticSymbol name index) = some cell ∧ 16 ≤ cell ∧ cell ≤ 255) ∧
    (∀ use ∈ staticUses units, ∀ other ∈ staticUses units, use ≠ other →
      rom.cellOf? (useSymbol use) ≠ rom.cellOf? (useSymbol other)) ∧
    (∀ before unit after done direction index rest, units = before ++ unit :: after →
      unit.commands = done ++ .move direction .statics index :: rest →
      ∃ cell, rom.cellOf? (staticSymbol unit.name index) = some cell ∧
        rom.get? (Command.totalWords (before.flatMap SourceUnit.commands ++ done) +
          direction.wordsBeforeCell) = some (.load (.ofNat 16 cell))) ∧
    ∀ name index, rom.label? (staticSymbol name index) = none ∧
      predefined? (staticSymbol name index) = none := by
  refine ⟨?_, ?_, ?_, ?_⟩
  · intro name index member
    exact exists_cell_of_use assembled member
  · intro use member other _ differ same
    obtain ⟨cell, found, _⟩ := exists_cell_of_use assembled member
    have shared := same.symm.trans found
    rw [← Rom.variableAt?_eq_some_iff assembled] at found shared
    exact differ (useSymbol_inj (Option.some.inj (found.symm.trans shared)))
  · intro before unit after done direction index rest linked commands
    exact get?_of_use clean assembled linked commands
  · intro name index
    exact ⟨(addressOf?_staticSymbol assembled name index).1,
      isUnfixed_iff.1 (isUnfixed_staticSymbol name index)⟩

/-- A unit whose second static variable has the name of another unit as its symbol. -/
def sampleFoo : SourceUnit := ⟨"Foo.vm", "Foo", "push static 11\npop static 1", by decide⟩

def sampleFooOne : SourceUnit :=
  ⟨"Foo.1.vm", "Foo.1", "push static 1\npop static 11", by decide⟩

/-- Points in the name of a unit do no harm. -/
theorem statics_private_to_sampleFoo :
    (∀ unit ∈ [sampleFoo, sampleFooOne], unit.compile.hasError = false) ∧
    ("Foo", 11) ∈ staticUses [sampleFoo, sampleFooOne] ∧
    ("Foo.1", 1) ∈ staticUses [sampleFoo, sampleFooOne] ∧
    ∃ rom, Rom.assemble (linkedProgram [sampleFoo, sampleFooOne]) = .ok rom ∧
      rom.cellOf? "Foo.11" ≠ rom.cellOf? "Foo.1.1" ∧
      (∃ cell, rom.cellOf? "Foo.11" = some cell ∧ 16 ≤ cell ∧ cell ≤ 255) ∧
      (∃ cell, rom.cellOf? "Foo.1.1" = some cell ∧
        rom.get? 12 = some (.load (.ofNat 16 cell))) ∧
      rom.label? "Foo.1" = none := by
  have clean : ∀ unit ∈ [sampleFoo, sampleFooOne], unit.compile.hasError = false := by
    decide +kernel
  have first : ("Foo", 11) ∈ staticUses [sampleFoo, sampleFooOne] := by decide +kernel
  have second : ("Foo.1", 1) ∈ staticUses [sampleFoo, sampleFooOne] := by decide +kernel
  obtain ⟨rom, assembled⟩ : ∃ rom, Rom.assemble (linkedProgram [sampleFoo, sampleFooOne]) = .ok rom :=
    Rom.exists_assemble (by decide +kernel) (by decide +kernel) (by decide +kernel)
  obtain ⟨cells, apart, loads, names⟩ := statics_private_to_units clean assembled
  refine ⟨clean, first, second, rom, assembled, apart _ first _ second (by decide),
    cells "Foo" 11 first, ?_, (names "Foo" 1).1⟩
  exact loads [sampleFoo] sampleFooOne [] [] .push 1 [.move .pop .statics 11] rfl
    (by decide +kernel)

end Hack.VM
