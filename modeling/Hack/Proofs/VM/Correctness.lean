import Hack.Proofs.Rom.Acceptance
import Hack.Proofs.VM.Simulation

/-!
Whole programs: compiled units, linked one after the other, do what their commands mean.

The blocks of a unit are crossed one after the other, and so are the units. An assembled program is
one piece that stands at address zero, so a run from there crosses all of it and ends behind it.
-/

namespace Hack

open Assembly VM

namespace VM

/-- The code of units, one after the other. -/
def linkedProgram (units : List SourceUnit) : Program :=
  units.flatMap fun unit => unit.compile.program

/-- Memory after the commands of units, one unit after the other. -/
def performUnits (rom : Rom) (units : List SourceUnit) (memory : Memory) : Memory :=
  units.foldl (fun memory unit => performAll rom unit.name unit.commands memory) memory

theorem linkedProgram_append (front back : List SourceUnit) :
    linkedProgram (front ++ back) = linkedProgram front ++ linkedProgram back :=
  List.flatMap_append

theorem linkedProgram_cons (unit : SourceUnit) (units : List SourceUnit) :
    linkedProgram (unit :: units) = unit.compile.program ++ linkedProgram units :=
  List.flatMap_cons

theorem isComparisonLabel_of_mem_linkedProgram {units : List SourceUnit} {name : String}
    (member : .label name ∈ linkedProgram units) : IsComparisonLabel name := by
  obtain ⟨unit, _, inUnit⟩ := List.mem_flatMap.1 member
  obtain ⟨block, inBlocks, inCode⟩ := List.mem_flatMap.1 inUnit
  exact (compiles_of_mem_blocks (Array.mem_toList_iff.1 inBlocks)).isComparisonLabel inCode

/-! ## Words -/

theorem wordCount_flatMap_code {unit : String} {blocks : List Block}
    (compiled : ∀ block ∈ blocks, Compiles unit block.command block.code) :
    Program.wordCount (blocks.flatMap Block.code) =
      Command.totalWords (blocks.map Block.command) := by
  induction blocks with
  | nil => rfl
  | cons block blocks ih =>
    rw [List.flatMap_cons, Program.wordCount_append,
      (compiled block List.mem_cons_self).wordCount,
      ih fun other member => compiled other (.tail _ member)]
    rfl

theorem compiles_of_mem_toList {unit : SourceUnit} (block : Block)
    (member : block ∈ unit.compile.blocks.toList) :
    Compiles unit.name block.command block.code :=
  compiles_of_mem_blocks (Array.mem_toList_iff.1 member)

theorem wordCount_linkedProgram {units : List SourceUnit}
    (clean : ∀ unit ∈ units, unit.compile.hasError = false) :
    (linkedProgram units).wordCount = Command.totalWords (units.flatMap SourceUnit.commands) := by
  induction units with
  | nil => rfl
  | cons unit units ih =>
    rw [linkedProgram_cons, Program.wordCount_append,
      ih fun other member => clean other (.tail _ member),
      Compilation.program, wordCount_flatMap_code compiles_of_mem_toList,
      map_command_of_compile (clean unit List.mem_cons_self), List.flatMap_cons,
      Command.totalWords_append]

/-! ## Static variables -/

/-- The static variables that units use have cells in the assembled program. -/
theorem exists_cellOf?_of_assemble {units : List SourceUnit} {rom : Rom}
    (clean : ∀ unit ∈ units, unit.compile.hasError = false)
    (assembled : Rom.assemble (linkedProgram units) = .ok rom) {unit : SourceUnit}
    (linked : unit ∈ units) {direction : Direction} {index : Word}
    (used : .move direction .statics index ∈ unit.commands) :
    ∃ cell, rom.cellOf? (staticSymbol unit.name index) = some cell := by
  have names : rom.Conventional :=
    conventional_of_assemble assembled fun _ => isComparisonLabel_of_mem_linkedProgram
  rw [← map_command_of_compile (clean unit linked)] at used
  obtain ⟨block, inBlocks, command⟩ := List.mem_map.1 used
  have compiled := compiles_of_mem_toList block inBlocks
  rw [command] at compiled
  have loads : .load (.symbol (staticSymbol unit.name index)) ∈ linkedProgram units :=
    List.mem_flatMap.2 ⟨unit, linked, List.mem_flatMap.2 ⟨block, inBlocks, compiled.symbol_mem⟩⟩
  obtain ⟨_, found⟩ := Rom.exists_link?_of_placed (Rom.placed_of_assemble assembled) loads
  obtain ⟨cell, address, _⟩ := Option.map_eq_some_iff.1 found
  rw [names.statics] at address
  exact ⟨cell, address⟩

/-! ## Two sample units -/

theorem isSymbol_main : isSymbol "Main" = true := by decide

/-- A unit that stores a constant and compares it with a value that the memory decides. -/
def sampleMain : SourceUnit :=
  ⟨"Main.vm", "Main", "push constant 7\npop static 0\npush static 0\npush local 2\nlt",
    isSymbol_main⟩

/-- A unit that uses a static variable of the same index. -/
def sampleUtil : SourceUnit := ⟨"Util.vm", "Util", "push static 0\npop that 1", by decide⟩

theorem hasError_sampleUnits :
    ∀ unit ∈ [sampleMain, sampleUtil], unit.compile.hasError = false := by
  decide +kernel

theorem commands_sampleMain :
    sampleMain.commands =
      [.move .push .constant 7, .move .pop .statics 0] ++
        [.move .push .statics 0, .move .push .locals 2, .operate .lt] := by
  decide +kernel

theorem exists_assemble_sampleUnits :
    ∃ rom, Rom.assemble (linkedProgram [sampleMain, sampleUtil]) = .ok rom :=
  Rom.exists_assemble (by decide +kernel) (by decide +kernel) (by decide +kernel)

end VM

namespace Machine

variable {m : Machine}

/-- The machine crosses the code of blocks of one unit. -/
theorem crosses_blocks {unit : String} {blocks : List Block}
    (compiled : ∀ block ∈ blocks, Compiles unit block.command block.code)
    (placed : m.rom.Placed m.pc (blocks.flatMap Block.code)) (names : m.rom.Conventional)
    (running : m.halted = false) :
    ∃ last, Crosses m (blocks.flatMap Block.code) last ∧
      last.ram = performAll m.rom unit (blocks.map Block.command) m.ram := by
  induction blocks generalizing m with
  | nil => exact ⟨m, .nil running, rfl⟩
  | cons block blocks ih =>
    rw [List.flatMap_cons, Rom.placed_append] at placed
    obtain ⟨middle, first, ram⟩ :=
      crosses_of_compiles (compiled block List.mem_cons_self) placed.1 names running
    have later : middle.rom.Placed middle.pc (blocks.flatMap Block.code) := by
      rw [first.rom_eq, first.pc_eq]
      exact placed.2
    have namesThen : middle.rom.Conventional := by rw [first.rom_eq]; exact names
    obtain ⟨last, second, ram'⟩ :=
      ih (fun other member => compiled other (.tail _ member)) later namesThen first.running
    refine ⟨last, first.append second, ?_⟩
    rw [ram', ram, first.rom_eq]
    rfl

/-- The machine crosses the code of whole units. -/
theorem crosses_units {units : List SourceUnit}
    (clean : ∀ unit ∈ units, unit.compile.hasError = false)
    (placed : m.rom.Placed m.pc (linkedProgram units)) (names : m.rom.Conventional)
    (running : m.halted = false) :
    ∃ last, Crosses m (linkedProgram units) last ∧ last.ram = performUnits m.rom units m.ram := by
  induction units generalizing m with
  | nil => exact ⟨m, .nil running, rfl⟩
  | cons unit units ih =>
    rw [linkedProgram_cons, Rom.placed_append] at placed
    obtain ⟨middle, first, ram⟩ := crosses_blocks compiles_of_mem_toList placed.1 names running
    rw [map_command_of_compile (clean unit List.mem_cons_self)] at ram
    have later : middle.rom.Placed middle.pc (linkedProgram units) := by
      rw [first.rom_eq, first.pc_eq]
      exact placed.2
    have namesThen : middle.rom.Conventional := by rw [first.rom_eq]; exact names
    obtain ⟨last, second, ram'⟩ :=
      ih (fun other member => clean other (.tail _ member)) later namesThen first.running
    refine ⟨last, linkedProgram_cons unit units ▸ first.append second, ?_⟩
    rw [ram', ram, first.rom_eq]
    rfl

/-- The machine crosses the code of units and of the first commands of another one. -/
theorem crosses_front {before after : List SourceUnit} {unit : SourceUnit}
    {done rest : List Command}
    (clean : ∀ other ∈ before ++ unit :: after, other.compile.hasError = false)
    (commands : unit.commands = done ++ rest)
    (placed : m.rom.Placed m.pc (linkedProgram (before ++ unit :: after)))
    (names : m.rom.Conventional) (running : m.halted = false) :
    ∃ code last, Crosses m code last ∧
      code.wordCount = Command.totalWords (before.flatMap SourceUnit.commands ++ done) ∧
      last.ram = performAll m.rom unit.name done (performUnits m.rom before m.ram) := by
  have cleanBefore : ∀ other ∈ before, other.compile.hasError = false := fun other member =>
    clean other (List.mem_append_left _ member)
  rw [linkedProgram_append, linkedProgram_cons, Rom.placed_append, Rom.placed_append] at placed
  obtain ⟨placedBefore, placedUnit, _⟩ := placed
  obtain ⟨middle, first, ram⟩ := crosses_units cleanBefore placedBefore names running
  have split := map_command_of_compile (clean unit (by simp))
  rw [commands, List.map_eq_append_iff] at split
  -- the blocks of the first commands are the first blocks of the unit
  obtain ⟨front, back, blocks, rfl, _⟩ := split
  have compiled : ∀ block ∈ front, Compiles unit.name block.command block.code := by
    intro block member
    refine compiles_of_mem_toList block ?_
    rw [blocks]
    exact List.mem_append_left _ member
  rw [Compilation.program, blocks, List.flatMap_append, Rom.placed_append] at placedUnit
  have placedThen : middle.rom.Placed middle.pc (front.flatMap Block.code) := by
    rw [first.rom_eq, first.pc_eq]
    exact placedUnit.1
  have namesThen : middle.rom.Conventional := by rw [first.rom_eq]; exact names
  obtain ⟨last, second, ram'⟩ := crosses_blocks compiled placedThen namesThen first.running
  refine ⟨_, last, first.append second, ?_, ?_⟩
  · rw [Program.wordCount_append, wordCount_linkedProgram cleanBefore,
      wordCount_flatMap_code compiled, Command.totalWords_append]
  · rw [ram', ram, first.rom_eq]

/-! ## Assembled units -/

/-- A run that may execute as many instructions as fit in the instruction memory ends behind the
last one if the machine crosses the whole program. -/
theorem exists_run_of_crosses {program : Program} {rom : Rom}
    (assembled : Rom.assemble program = .ok rom) {memory : Memory} {last : Machine}
    (crosses : Crosses (boot rom memory) program last) {limit : Nat}
    (enough : MemoryMap.romSize ≤ limit) :
    ∃ n, run limit (boot rom memory) = (n, last) ∧ last.pc = rom.size := by
  obtain ⟨n, few, steps⟩ := crosses.steps
  have size : program.wordCount = rom.size := (Rom.size_of_assemble assembled).symm
  have inside : rom.size ≤ MemoryMap.romSize := Rom.size_le_of_assemble assembled
  have pc : last.pc = rom.size := by
    rw [crosses.pc_eq, size]
    exact Nat.zero_add _
  have stopped : last.stopped = true := by
    simp [stopped, pc, steps.rom_eq, boot, start]
  exact ⟨n, run_eq_of_steps steps stopped (by omega), pc⟩

/-- So does the run of linked units, and it leaves the memory that their commands leave. -/
theorem exists_run_of_assemble {units : List SourceUnit} {rom : Rom}
    (clean : ∀ unit ∈ units, unit.compile.hasError = false)
    (assembled : Rom.assemble (linkedProgram units) = .ok rom) (memory : Memory) {limit : Nat}
    (enough : MemoryMap.romSize ≤ limit) :
    ∃ n last, run limit (boot rom memory) = (n, last) ∧ last.halted = false ∧
      last.pc = rom.size ∧ last.ram = performUnits rom units memory := by
  have placed : rom.Placed 0 (linkedProgram units) := Rom.placed_of_assemble assembled
  have names : rom.Conventional :=
    conventional_of_assemble assembled fun _ => isComparisonLabel_of_mem_linkedProgram
  obtain ⟨last, crosses, ram⟩ := crosses_units (m := boot rom memory) clean placed names rfl
  obtain ⟨n, ran, pc⟩ := exists_run_of_crosses assembled crosses enough
  exact ⟨n, last, ran, crosses.running, pc, ram⟩

/-- **Compiled units do what their commands mean.** Units without errors are linked and assembled,
and the machine starts with any content of its memory. Their static variables all have cells.
Whenever the code of some first commands is crossed the memory is the one that these commands leave,
and the run ends behind the last instruction with the memory that all commands leave. -/
theorem run_linked_units {units : List SourceUnit} {rom : Rom}
    (clean : ∀ unit ∈ units, unit.compile.hasError = false)
    (assembled : Rom.assemble (linkedProgram units) = .ok rom) (memory : Memory) :
    (∀ unit ∈ units, ∀ direction index, .move direction .statics index ∈ unit.commands →
      ∃ cell, rom.cellOf? (staticSymbol unit.name index) = some cell) ∧
    (∀ before unit after done rest, units = before ++ unit :: after →
      unit.commands = done ++ rest →
      ∃ n m, Steps n (boot rom memory) m ∧ m.halted = false ∧
        m.pc = Command.totalWords (before.flatMap SourceUnit.commands ++ done) ∧
        m.ram = performAll rom unit.name done (performUnits rom before memory)) ∧
    ∀ limit, MemoryMap.romSize ≤ limit →
      ∃ n last, run limit (boot rom memory) = (n, last) ∧ last.halted = false ∧
        last.pc = rom.size ∧ last.ram = performUnits rom units memory := by
  refine ⟨fun unit linked _ _ => exists_cellOf?_of_assemble clean assembled linked, ?_,
    fun _ => exists_run_of_assemble clean assembled memory⟩
  rintro before unit after done rest rfl commands
  have placed : rom.Placed 0 (linkedProgram (before ++ unit :: after)) :=
    Rom.placed_of_assemble assembled
  have names : rom.Conventional :=
    conventional_of_assemble assembled fun _ => isComparisonLabel_of_mem_linkedProgram
  obtain ⟨code, m, crosses, words, ram⟩ :=
    crosses_front (m := boot rom memory) clean commands placed names rfl
  obtain ⟨n, _, steps⟩ := crosses.steps
  refine ⟨n, m, steps, crosses.running, ?_, ram⟩
  rw [crosses.pc_eq, words]
  exact Nat.zero_add _

/-- The sample units run to their end, and on the way the first two commands are done. -/
theorem run_linked_sampleUnits :
    (∀ unit ∈ [sampleMain, sampleUtil], unit.compile.hasError = false) ∧
    ∃ rom, Rom.assemble (linkedProgram [sampleMain, sampleUtil]) = .ok rom ∧
      (∃ n m, Steps n (boot rom .zero) m ∧ m.halted = false ∧
        m.ram = performAll rom "Main" [.move .push .constant 7, .move .pop .statics 0] .zero) ∧
      ∃ n last, run (0xFFFFFFFFFFFFFFFF) (boot rom .zero) = (n, last) ∧ last.halted = false ∧
        last.pc = rom.size ∧ last.ram = performUnits rom [sampleMain, sampleUtil] .zero := by
  obtain ⟨rom, assembled⟩ := exists_assemble_sampleUnits
  obtain ⟨_, boundaries, ends⟩ := run_linked_units hasError_sampleUnits assembled .zero
  have limit : MemoryMap.romSize ≤ 0xFFFFFFFFFFFFFFFF := by decide
  obtain ⟨n, m, steps, running, _, ram⟩ :=
    boundaries [] sampleMain [sampleUtil] _ _ rfl commands_sampleMain
  exact ⟨hasError_sampleUnits, rom, assembled, ⟨n, m, steps, running, ram⟩, ends _ limit⟩

end Machine

end Hack
