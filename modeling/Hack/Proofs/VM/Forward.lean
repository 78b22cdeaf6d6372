import Hack.Proofs.Machine.Forward
import Hack.Proofs.VM.Correctness

/-!
Compiled code only leads forward.

Only comparisons branch, to labels of their own code that stand further on. So an assembled program
of compiled units is `Rom.Forward`, and each of its runs goes straight to the end, whatever the
memory holds.
-/

namespace Hack

open Assembly VM

theorem never_of_link? {statement : Statement} (straight : statement.isStraight = true)
    {addressOf? : String → Option Nat} {dest : Dest} {comp : Comp} {jump : Jump}
    (linked : statement.link? addressOf? = some (.compute dest comp jump)) : jump = .never := by
  cases statement with
  | load operand =>
    cases operand with
    | value n => cases linked
    | symbol name =>
      rcases Option.map_eq_some_iff.1 linked with ⟨_, _, different⟩
      cases different
  | compute dest' comp' jump' =>
    cases linked
    exact eq_of_beq straight
  | label name => cases linked
  | comment text => cases linked

/-- Straight code holds no branch. -/
theorem never_of_placed {rom : Rom} {base : Nat} {code : Program} (placed : rom.Placed base code)
    (straight : code.all Statement.isStraight = true) {address : Nat} {dest : Dest} {comp : Comp}
    {jump : Jump} (start : base ≤ address) (finish : address < base + code.wordCount)
    (fetched : rom.get? address = some (.compute dest comp jump)) : jump = .never := by
  induction code generalizing base with
  | nil =>
    rw [Program.wordCount_nil] at finish
    omega
  | cons statement rest ih =>
    rw [List.all_cons, Bool.and_eq_true] at straight
    rw [Program.wordCount_cons] at finish
    rcases placed with ⟨here, later⟩
    by_cases beyond : base + statement.words ≤ address
    · exact ih later straight.2 beyond (by omega)
    · -- the address is that of the first statement, which has a word only as an instruction
      cases statement with
      | load operand =>
        rw [show (Statement.load operand).words = 1 from rfl] at beyond
        rcases here with ⟨instr, linked, found⟩
        obtain rfl : address = base := by omega
        rw [found] at fetched
        cases fetched
        exact never_of_link? straight.1 linked
      | compute dest' comp' jump' =>
        rw [show (Statement.compute dest' comp' jump').words = 1 from rfl] at beyond
        rcases here with ⟨instr, linked, found⟩
        obtain rfl : address = base := by omega
        rw [found] at fetched
        cases fetched
        exact never_of_link? straight.1 linked
      | label name => exact absurd start beyond
      | comment text => exact absurd start beyond

namespace VM

variable {unit : String} {command : Command} {code : Program}

theorem Compiles.isStraight (compiled : Compiles unit command code)
    (plain : command.isComparison = false) : code.all Statement.isStraight = true := by
  cases compiled with
  | operate number op => cases op <;> first | rfl | cases plain
  | push reached => cases reached <;> rfl
  | pop reached popped => cases reached <;> cases popped <;> rfl

/-- The blocks of units, one unit after the other. -/
def linkedBlocks (units : List SourceUnit) : List Block :=
  units.flatMap fun unit => unit.compile.blocks.toList

theorem linkedProgram_eq_flatMap (units : List SourceUnit) :
    linkedProgram units = (linkedBlocks units).flatMap Block.code :=
  List.flatMap_assoc.symm

/-- A place in the code of a comparison, and the address of one of its two labels. -/
def AimsAtOwnLabel (rom : Rom) (blocks : List Block) (place target : Nat) : Prop :=
  ∃ before block after name, blocks = before ++ block :: after ∧
    block.command.isComparison = true ∧
    Program.wordCount (before.flatMap Block.code) ≤ place ∧
    place < Program.wordCount (before.flatMap Block.code) + block.code.wordCount ∧
    .label name ∈ block.code ∧ rom.label? name = some target

/-- Every word of some blocks belongs to one of them. -/
theorem exists_block_at {blocks : List Block} {place : Nat}
    (inside : place < Program.wordCount (blocks.flatMap Block.code)) :
    ∃ before block after, blocks = before ++ block :: after ∧
      Program.wordCount (before.flatMap Block.code) ≤ place ∧
      place < Program.wordCount (before.flatMap Block.code) + block.code.wordCount := by
  induction blocks generalizing place with
  | nil => cases inside
  | cons block blocks ih =>
    by_cases here : place < block.code.wordCount
    · exact ⟨[], block, blocks, rfl, Nat.zero_le _, by rwa [List.flatMap_nil, Program.wordCount_nil,
        Nat.zero_add]⟩
    · rw [List.flatMap_cons, Program.wordCount_append] at inside
      have later :
          place - block.code.wordCount < Program.wordCount (blocks.flatMap Block.code) := by
        omega
      obtain ⟨before, other, after, split, start, finish⟩ := ih later
      refine ⟨block :: before, other, after, by rw [split]; rfl, ?_, ?_⟩ <;>
        rw [List.flatMap_cons, Program.wordCount_append] <;> omega

end VM

/-- The branches of a comparison stand behind the loads of its two labels. -/
theorem ComparisonAt.branch {rom : Rom} {base : Nat} {jump : Jump} {labels : LabelPair}
    (code : ComparisonAt rom base jump labels) {address : Nat} {dest : Dest} {comp : Comp}
    {jump' : Jump} (fetched : rom.get? address = some (.compute dest comp jump'))
    (branches : jump' ≠ .never) (start : base ≤ address) (finish : address < base + 15) :
    (address = base + 6 ∨ address = base + 11) := by
  by_cases decides : address = base + 6
  · exact Or.inl decides
  · by_cases leaves : address = base + 11
    · exact Or.inr leaves
    · refine absurd ?_ branches
      have subtract : (Code.subtract labels).wordCount = 6 := rfl
      have deny : (Code.deny labels).wordCount = 4 := rfl
      have affirm : (Code.unary .minusOne).wordCount = 3 := rfl
      by_cases first : address < base + 6
      · exact never_of_placed code.subtract rfl start (by omega) fetched
      · by_cases second : address < base + 11
        · exact never_of_placed code.deny rfl (by omega) (by omega) fetched
        · exact never_of_placed code.affirm rfl (by omega) (by omega) fetched

/-- A label of a comparison stands in its code. -/
theorem label_mem_compare (jump : Jump) (labels : LabelPair) :
    .label labels.onTrue ∈ Code.compare jump labels ∧
      .label labels.finish ∈ Code.compare jump labels := by
  rw [Code.compare_eq]
  simp

/-- A label that is loaded, stands further on and has a computation just before it. -/
theorem exists_label_ahead {rom : Rom} {before after : Nat} {name : String} {dest : Dest}
    {comp : Comp} {jump : Jump} (load : rom.get? before = some (.load (.ofNat 16 (after + 1))))
    (label : rom.label? name = some (after + 1)) (ahead : before < after)
    (behind : rom.get? after = some (.compute dest comp jump))
    (size : rom.size ≤ MemoryMap.romSize) :
    ∃ target, rom.get? before = some (.load target) ∧ rom.label? name = some target.toNat ∧
      before + 1 < target.toNat ∧ target.toNat ≤ rom.size ∧
      ∀ place value, target.toNat = place + 1 → rom.get? place ≠ some (.load value) := by
  have inside : after < rom.size := Machine.pc_lt_of_get? behind
  -- a label behind the last word of a full memory is a word still, though a negative number
  have small : after + 1 < 2 ^ 16 :=
    Nat.lt_of_le_of_lt (Nat.le_trans inside size) (by decide)
  have aim : (BitVec.ofNat 16 (after + 1)).toNat = after + 1 := Nat.mod_eq_of_lt small
  refine ⟨_, load, ?_, ?_, ?_, ?_⟩
  · rw [aim]
    exact label
  · omega
  · omega
  · intro place value equal
    obtain rfl : place = after := by omega
    rw [behind]
    rintro ⟨⟩

/-- Each branch of a comparison is behind the load of one of its labels, which stands further on and
not behind a load itself. -/
theorem ComparisonAt.target {rom : Rom} {base : Nat} {jump : Jump} {labels : LabelPair}
    (code : ComparisonAt rom base jump labels) (size : rom.size ≤ MemoryMap.romSize) {address : Nat}
    (branch : address = base + 6 ∨ address = base + 11) :
    ∃ before target name, address = before + 1 ∧ .label name ∈ Code.compare jump labels ∧
      rom.get? before = some (.load target) ∧ rom.label? name = some target.toNat ∧
      before + 1 < target.toNat ∧ target.toNat ≤ rom.size ∧
      ∀ behind value, target.toNat = behind + 1 → rom.get? behind ≠ some (.load value) := by
  obtain ⟨onTrue, finish⟩ := label_mem_compare jump labels
  rcases branch with rfl | rfl
  · obtain ⟨target, aimed⟩ :=
      exists_label_ahead code.loads_onTrue code.onTrue (by omega) code.leaves size
    exact ⟨base + 5, target, labels.onTrue, rfl, onTrue, aimed⟩
  · obtain ⟨target, aimed⟩ :=
      exists_label_ahead code.loads_finish code.finish (by omega) code.affirms size
    exact ⟨base + 10, target, labels.finish, rfl, finish, aimed⟩

/-- An assembled program of compiled units leads forward, each branch to a label of its own
comparison. -/
theorem forward_of_assemble {units : List SourceUnit} {rom : Rom}
    (assembled : Rom.assemble (linkedProgram units) = .ok rom) :
    rom.Forward fun place target =>
      AimsAtOwnLabel rom (linkedBlocks units) place target.toNat := by
  have placed := Rom.placed_of_assemble assembled
  have size := Rom.size_of_assemble assembled
  have fits := Rom.size_le_of_assemble assembled
  rw [linkedProgram_eq_flatMap] at placed size
  constructor
  intro address dest comp jump fetched branches
  have inside := Machine.pc_lt_of_get? fetched
  rw [size] at inside
  obtain ⟨before, block, after, split, start, finish⟩ := exists_block_at inside
  have linked : block ∈ linkedBlocks units := by
    rw [split]
    exact List.mem_append_right _ List.mem_cons_self
  obtain ⟨unit, _, member⟩ := List.mem_flatMap.1 linked
  have compiled := compiles_of_mem_toList block member
  rw [split, List.flatMap_append, List.flatMap_cons, Rom.placed_append, Rom.placed_append,
    Nat.zero_add] at placed
  obtain ⟨_, here, _⟩ := placed
  cases compares : block.command.isComparison with
  | false =>
    exact absurd (never_of_placed here (compiled.isStraight compares) start finish fetched) branches
  | true =>
    obtain ⟨jump', number, shape⟩ := compiled.eq_compare compares
    rw [shape] at here finish
    have code := comparisonAt_of_placed here
    obtain ⟨back, target, name, rfl, member, load, label, ahead, inside, fresh⟩ :=
      code.target fits (code.branch fetched branches start finish)
    refine ⟨back, target, rfl, load, ?_, ahead, inside, fresh⟩
    refine ⟨before, block, after, name, split, compares, start, ?_, ?_, label⟩
    · rw [shape]
      exact finish
    · rw [shape]
      exact member

namespace Machine

/-- **Compiled units run straight to their end, whatever the memory holds.** Wherever the machine
gets from the start of the assembled program, the program counter rises with the next step, which
does not halt and leaves the next instruction out only for a label of the comparison it belongs to.
So no run takes more steps than there are instructions, and a run that may take as many as fit in
the instruction memory ends behind the last of them. -/
theorem run_linked_units_forward {units : List SourceUnit} {rom : Rom}
    (assembled : Rom.assemble (linkedProgram units) = .ok rom) (memory : Memory) :
    (∀ n m next, Steps n (boot rom memory) m → m.step? = some next →
      m.pc < next.pc ∧ next.halted = false ∧
        (next.pc = m.pc + 1 ∨ AimsAtOwnLabel rom (linkedBlocks units) m.pc next.pc) ∧
        ∀ dest comp jump, rom.get? m.pc = some (.compute dest comp jump) → jump ≠ .never →
          AimsAtOwnLabel rom (linkedBlocks units) m.pc m.a.toNat) ∧
    (∀ limit, (run limit (boot rom memory)).1 ≤ rom.size) ∧
    ∀ limit, MemoryMap.romSize ≤ limit →
      (run limit (boot rom memory)).2.pc = rom.size ∧
        (run limit (boot rom memory)).2.halted = false := by
  have forward := forward_of_assemble assembled
  have course := onCourse_boot forward memory
  refine ⟨?_, fun limit => course.run_count_le forward limit, ?_⟩
  · intro n m next steps step
    have rom_eq : m.rom = rom := steps.rom_eq
    have forwardThen : m.rom.Forward fun place target =>
        AimsAtOwnLabel rom (linkedBlocks units) place target.toNat := by
      rw [rom_eq]
      exact forward
    have courseThen := (course.of_steps forward steps).1
    obtain ⟨later, ahead⟩ := courseThen.of_step forwardThen step
    have aimed {dest : Dest} {comp : Comp} {jump : Jump}
        (fetched : m.rom.get? m.pc = some (.compute dest comp jump)) (branches : jump ≠ .never) :
        AimsAtOwnLabel rom (linkedBlocks units) m.pc m.a.toNat :=
      (courseThen.target forwardThen fetched branches).1
    refine ⟨ahead, later.running, ?_, fun dest comp jump fetched branches => ?_⟩
    · obtain ⟨_, instr, fetched, rfl⟩ := step?_eq_some_iff.1 step
      rcases execute_pc m instr with pc | ⟨dest, comp, jump, rfl, branches, pc⟩
      · exact Or.inl pc
      · rw [pc]
        exact Or.inr (aimed fetched branches)
    · rw [← rom_eq] at fetched
      exact aimed fetched branches
  · intro limit enough
    have inside := Rom.size_le_of_assemble assembled
    exact ⟨course.run_pc_eq forward (Nat.le_trans inside enough),
      (course.of_run forward limit).1.running⟩

theorem run_linked_sampleUnits_forward :
    ∃ rom, Rom.assemble (linkedProgram [sampleMain, sampleUtil]) = .ok rom ∧
      (run (0xFFFFFFFFFFFFFFFF) (boot rom .zero)).1 ≤ rom.size ∧
      (run (0xFFFFFFFFFFFFFFFF) (boot rom .zero)).2.pc = rom.size ∧
      (run (0xFFFFFFFFFFFFFFFF) (boot rom .zero)).2.halted = false := by
  obtain ⟨rom, assembled⟩ := exists_assemble_sampleUnits
  obtain ⟨_, few, ends⟩ := run_linked_units_forward assembled .zero
  exact ⟨rom, assembled, few _, ends _ (by decide)⟩

end Machine

end Hack

