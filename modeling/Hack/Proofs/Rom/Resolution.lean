import Hack.Proofs.Rom.Acceptance

/-!
What the symbols of an assembled program stand for.

`Rom.Resolves` says what an assembled program holds in terms of its statements only: which of them
the words come from, how many words stand before the definition of a label, and how many variables
were used before the first use of a variable. `resolves_of_assemble` puts it together from the
tables that the two passes leave.
-/

namespace Hack

open Assembly

namespace Assembly.Program

variable {program : Program} {name : String}

theorem mem_variableNames :
    name ∈ program.variableNames ↔
      name ∈ program.symbolNames ∧ name ∉ program.labelNames ∧ predefined? name = none := by
  unfold variableNames variablesIn
  rw [List.mem_eraseDups, List.mem_filter, isVariable_iff]

theorem nodup_variableNames : program.variableNames.Nodup := nodup_eraseDups _

/-- The variables before a first use stand before it in the list of all variables. -/
theorem idxOf?_of_first_use {front back : Program}
    (split : program = front ++ .symbol name :: back)
    (isVariable : program.isVariable name = true) (first : name ∉ front.symbolNames) :
    program.variableNames.idxOf? name = some (program.variablesIn front).length := by
  have uses : program.symbolNames = front.symbolNames ++ [name] ++ symbolNames back := by
    rw [split, symbolNames_append, List.append_assoc]
    rfl
  have fresh : name ∉ front.symbolNames.filter program.isVariable := fun member =>
    first (List.mem_filter.1 member).1
  have absent : name ∉ program.variablesIn front := fun member =>
    fresh (List.mem_eraseDups.1 member)
  unfold variableNames
  rw [variablesIn, uses, List.filter_append, List.filter_append, List.filter_cons_of_pos isVariable,
    List.filter_nil, List.eraseDups_append, eraseDups_concat_of_not_mem fresh, List.append_assoc]
  exact idxOf?_append_of_not_mem absent

end Assembly.Program

/-- Every fixed meaning is an address up to the keyboard. -/
theorem le_of_predefined? {name : String} {address : Nat}
    (fixed : predefined? name = some address) : address ≤ MemoryMap.keyboard := by
  rcases List.lookup_eq_some_iff.1 fixed with ⟨front, back, split, _⟩
  have member : (name, address) ∈ predefinedSymbols := by
    rw [split]
    exact List.mem_append_right _ List.mem_cons_self
  have bounded : ∀ entry ∈ predefinedSymbols, entry.2 ≤ MemoryMap.keyboard := by decide
  exact bounded _ member

namespace Rom

/-- What an assembled program holds, in terms of its statements. -/
structure Resolves (rom : Rom) (program : Program) : Prop where
  /-- One word after the other comes from one load or computation after the other. -/
  words : rom.instrs.toList.map some =
    (program.filter Statement.isInstruction).map (Statement.link? rom.addressOf?)
  /-- A symbol stands for the label of its name, else for its fixed meaning, else for the cell of
  the variable. -/
  symbol (name : String) :
    rom.addressOf? name = (rom.label? name).or ((predefined? name).or (rom.cellOf? name))
  /-- A word holds the whole address of the symbol that it loads. -/
  whole {name : String} {address : Nat} :
    rom.addressOf? name = some address → (BitVec.ofNat 16 address).toNat = address
  /-- Labels are listed in the order of their definitions, each once. -/
  labels : rom.labels.toList.map Prod.fst = program.labelNames ∧ program.labelNames.Nodup
  /-- They are listed with their addresses. -/
  listed_iff {name : String} {address : Nat} :
    (name, address) ∈ rom.labels.toList ↔ rom.label? name = some address
  /-- A label stands for the number of words before its definition. -/
  label_iff {name : String} {address : Nat} :
    rom.label? name = some address ↔
      ∃ front back : Program, program = front ++ .label name :: back ∧ address = front.wordCount
  /-- The variables are the symbols that are neither labels nor have a fixed meaning. -/
  variable_iff {name : String} :
    (∃ address, rom.cellOf? name = some address) ↔
      name ∈ program.symbolNames ∧ name ∉ program.labelNames ∧ predefined? name = none
  /-- A variable gets its cell at its first use, behind those of the variables used before. -/
  first_use {name : String} {front back : Program} :
    program = front ++ .symbol name :: back → program.isVariable name = true →
      name ∉ front.symbolNames →
      rom.cellOf? name = some (MemoryMap.firstVariable + (program.variablesIn front).length)
  /-- The cells of variables follow one another. -/
  cells {address : Nat} :
    (∃ name, rom.cellOf? name = some address) ↔
      MemoryMap.firstVariable ≤ address ∧
        address < MemoryMap.firstVariable + program.variableNames.length
  /-- Variables end before the stack. -/
  few : program.variableNames.length ≤ 240
  /-- The variable in a cell is the one that has this cell. -/
  variableAt_iff {name : String} {address : Nat} :
    rom.variableAt? address = some name ↔ rom.cellOf? name = some address

variable {program : Program} {rom : Rom}

theorem labels_of_assemble (assembled : assemble program = .ok rom) :
    program.labelNames.Nodup ∧ rom.labels.keys.toList = program.labelNames := by
  have collected := (assemble_eq_ok assembled).1
  rcases program.nodup_or_firstRepeated with distinct | ⟨name, repeated⟩
  · rcases Program.labels_of_nodup distinct with ⟨labels, collected', keys⟩
    rw [collected] at collected'
    cases collected'
    exact ⟨distinct, keys⟩
  · rw [Program.labels_of_firstRepeated repeated] at collected
    cases collected

theorem label?_eq_some_iff (assembled : assemble program = .ok rom) {name : String}
    {address : Nat} :
    rom.label? name = some address ↔
      ∃ front back : Program,
        program = front ++ .label name :: back ∧ address = front.wordCount := by
  have collected := (assemble_eq_ok assembled).1
  have place {front back : Program} (split : program = front ++ .label name :: back) :
      rom.label? name = some front.wordCount := by
    rw [split] at collected
    have found := Program.get?_label_of_labelsFrom collected
    rwa [Nat.zero_add] at found
  constructor
  · intro found
    rcases List.append_of_mem (mem_of_label? assembled found) with ⟨front, back, split⟩
    rw [place split] at found
    exact ⟨front, back, split, (Option.some.inj found).symm⟩
  · rintro ⟨front, back, split, rfl⟩
    exact place split

theorem variables_of_assemble (assembled : assemble program = .ok rom) :
    Program.Numbered rom.vars program.variableNames ∧
      program.variableNames.length ≤ Program.variableCells := by
  have linked := (assemble_eq_ok assembled).2.2
  rcases Program.instrsFrom_of_labels (labels_of_assemble assembled).2 with
    ⟨instrs, vars, linked', numbered, few⟩ | ⟨name, failed, _⟩
  · rw [linked] at linked'
    cases linked'
    exact ⟨numbered, few⟩
  · rw [linked] at failed
    cases failed

theorem cellOf?_eq_some_iff (assembled : assemble program = .ok rom) {name : String}
    {address : Nat} :
    rom.cellOf? name = some address ↔
      ∃ position, program.variableNames[position]? = some name ∧
        address = MemoryMap.firstVariable + position := by
  rw [cellOf?, (variables_of_assemble assembled).1.get?, Option.map_eq_some_iff]
  simp only [idxOf?_eq_some_iff_of_nodup Program.nodup_variableNames, eq_comm]

theorem variableAt?_eq_some_iff (assembled : assemble program = .ok rom) {name : String}
    {address : Nat} : rom.variableAt? address = some name ↔ rom.cellOf? name = some address := by
  have keys := (variables_of_assemble assembled).1.keys
  rw [cellOf?_eq_some_iff assembled, variableAt?, ← Array.getElem?_toList, keys]
  constructor
  · intro found
    split at found
    · cases found
    · exact ⟨_, found, by omega⟩
  · rintro ⟨position, found, rfl⟩
    rw [if_neg (by omega), Nat.add_sub_cancel_left]
    exact found

/-- A symbol stands for a label of the program or for an address up to the keyboard. -/
theorem addressOf?_cases (assembled : assemble program = .ok rom) {name : String} {address : Nat}
    (found : rom.addressOf? name = some address) :
    rom.label? name = some address ∧ address ≤ rom.size ∨ address ≤ MemoryMap.keyboard := by
  unfold addressOf? addressIn? at found
  rcases Option.or_eq_some_iff.1 found with label | ⟨_, found⟩
  · refine Or.inl ⟨label, ?_⟩
    rcases (label?_eq_some_iff assembled).1 label with ⟨front, back, split, rfl⟩
    rw [size_of_assemble assembled, split, Program.wordCount_append]
    exact Nat.le_add_right _ _
  · refine Or.inr ?_
    rcases Option.or_eq_some_iff.1 found with fixed | ⟨_, cell⟩
    · exact le_of_predefined? fixed
    · rcases (cellOf?_eq_some_iff assembled).1 cell with ⟨position, used, rfl⟩
      have inside := (List.getElem?_eq_some_iff.1 used).1
      have few := (variables_of_assemble assembled).2
      have limit : MemoryMap.firstVariable + Program.variableCells ≤ MemoryMap.keyboard := by decide
      omega

theorem toNat_of_addressOf? (assembled : assemble program = .ok rom) {name : String} {address : Nat}
    (found : rom.addressOf? name = some address) : (BitVec.ofNat 16 address).toNat = address := by
  have size := size_le_of_assemble assembled
  have behind : MemoryMap.romSize < 2 ^ 16 := by decide
  have keyboard : MemoryMap.keyboard < 2 ^ 16 := by decide
  have bound : address < 2 ^ 16 := by
    rcases addressOf?_cases assembled found with ⟨_, inside⟩ | low <;> omega
  exact Nat.mod_eq_of_lt bound

theorem exists_cell_iff (assembled : assemble program = .ok rom) {name : String} :
    (∃ address, rom.cellOf? name = some address) ↔ name ∈ program.variableNames := by
  rw [List.mem_iff_getElem?]
  simp only [cellOf?_eq_some_iff assembled]
  constructor
  · rintro ⟨address, position, used, _⟩
    exact ⟨position, used⟩
  · rintro ⟨position, used⟩
    exact ⟨_, position, used, rfl⟩

theorem exists_variable_iff (assembled : assemble program = .ok rom) {address : Nat} :
    (∃ name, rom.cellOf? name = some address) ↔
      MemoryMap.firstVariable ≤ address ∧
        address < MemoryMap.firstVariable + program.variableNames.length := by
  simp only [cellOf?_eq_some_iff assembled]
  constructor
  · rintro ⟨name, position, used, rfl⟩
    have inside := (List.getElem?_eq_some_iff.1 used).1
    omega
  · rintro ⟨low, high⟩
    have inside : address - MemoryMap.firstVariable < program.variableNames.length := by omega
    exact ⟨_, _, List.getElem?_eq_getElem inside, by omega⟩

theorem cellOf?_of_first_use (assembled : assemble program = .ok rom) {name : String}
    {front back : Program} (split : program = front ++ .symbol name :: back)
    (isVariable : program.isVariable name = true) (first : name ∉ front.symbolNames) :
    rom.cellOf? name = some (MemoryMap.firstVariable + (program.variablesIn front).length) := by
  rw [cellOf?, (variables_of_assemble assembled).1.get?,
    Program.idxOf?_of_first_use split isVariable first]
  rfl

/-- **Symbols are resolved exactly.** An assembled program holds what its statements say. -/
theorem resolves_of_assemble (assembled : assemble program = .ok rom) : rom.Resolves program := by
  rcases labels_of_assemble assembled with ⟨distinct, keys⟩
  refine
    { words := map_link?_of_assemble assembled
      symbol := fun _ => rfl
      whole := toNat_of_addressOf? assembled
      labels := ⟨?_, distinct⟩
      listed_iff := Table.mem_toList_iff (keys ▸ distinct)
      label_iff := label?_eq_some_iff assembled
      variable_iff := ?_
      first_use := cellOf?_of_first_use assembled
      cells := exists_variable_iff assembled
      few := (variables_of_assemble assembled).2
      variableAt_iff := variableAt?_eq_some_iff assembled }
  · rw [Table.map_fst_toList, keys]
  · intro name
    rw [exists_cell_iff assembled, Program.mem_variableNames]

/-- A label with the name of a register, a label that is loaded before its definition, and two
variables, one of them used twice. -/
def shadowingProgram : Program :=
  [.symbol "i", .symbol "END", .label "SP", .symbol "j", .symbol "R13", .symbol "i", .symbol "SP",
    .label "END", .value 7]

/-- There the label hides the register, and the second variable has the last cell in use. -/
theorem resolves_shadowingProgram :
    ∃ rom, assemble shadowingProgram = .ok rom ∧
      rom.addressOf? "SP" = some 2 ∧ rom.addressOf? "END" = some 6 ∧
      rom.labels.toList.map Prod.fst = ["SP", "END"] ∧ ("END", 6) ∈ rom.labels.toList ∧
      rom.cellOf? "j" = some 17 ∧ rom.variableAt? 17 = some "j" ∧
      ∀ name, rom.cellOf? name ≠ some 18 := by
  have accepted : ∃ rom, assemble shadowingProgram = .ok rom :=
    exists_assemble (by decide) (by decide) (by decide)
  rcases accepted with ⟨rom, assembled⟩
  have resolves : rom.Resolves shadowingProgram := resolves_of_assemble assembled
  have sp : rom.label? "SP" = some 2 := resolves.label_iff.2 ⟨shadowingProgram.take 2, _, rfl, rfl⟩
  have finish : rom.label? "END" = some 6 :=
    resolves.label_iff.2 ⟨shadowingProgram.take 7, _, rfl, rfl⟩
  have second : rom.cellOf? "j" = some 17 := by
    have split :
        shadowingProgram = shadowingProgram.take 3 ++ .symbol "j" :: shadowingProgram.drop 4 := rfl
    exact resolves.first_use split (by decide) (by decide)
  refine ⟨rom, assembled, ?_, ?_, resolves.labels.1, resolves.listed_iff.2 finish, second,
    resolves.variableAt_iff.2 second, ?_⟩
  · rw [resolves.symbol, sp]
    rfl
  · rw [resolves.symbol, finish]
    rfl
  · intro name third
    have two : shadowingProgram.variableNames.length = 2 := by decide
    have inside := (resolves.cells.1 ⟨name, third⟩).2
    rw [two] at inside
    exact absurd inside (by decide)

end Rom

end Hack
