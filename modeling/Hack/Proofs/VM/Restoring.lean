import Hack.Proofs.VM.Commands
import Hack.Proofs.VM.Correctness

/-!
A push undone by a pop.

A value that is pushed from a cell and popped to it again leaves memory as it was, except for the
copy on the free cell of the stack and perhaps for the scratch cell (`Restores`). No cell is assumed
to be apart from the cell that is addressed. All that counts is that the stack lies above the
registers: then the push changes neither the base register nor the scratch cell, so that the pop
finds the same cell, and taking the value off the stack brings the stack pointer back
(`Stack.lower_push`).
-/

namespace Hack

open Assembly VM

namespace VM

/-- What remains of a push from a cell of a segment and a pop to it. -/
structure Restores (segment : Segment) (cell : Word) (before after : Memory) : Prop where
  /-- The value is left behind on the free cell of the stack. -/
  value : after.get (Stack.pointer before) = before.get cell
  /-- The other cells, the stack pointer among them, hold what they held, except perhaps for the
  scratch cell. -/
  others (address : Word) :
    address ≠ Stack.pointer before → address ≠ .ofNat 16 MemoryMap.scratch →
      after.get address = before.get address
  /-- The scratch cell changes only for a segment behind a base register, and not even then if it
  is the cell itself. -/
  scratch : segment.base? = none ∨ cell = .ofNat 16 MemoryMap.scratch →
    after.get (.ofNat 16 MemoryMap.scratch) = before.get (.ofNat 16 MemoryMap.scratch)
  /-- Otherwise it holds the address of the cell. -/
  address : segment.base?.isSome = true → cell ≠ .ofNat 16 MemoryMap.scratch →
    after.get (.ofNat 16 MemoryMap.scratch) = cell

/-! ## The stack -/

namespace Stack

theorem pointer_set {memory : Memory} {address : Word} (differ : address ≠ Register.sp.cell)
    (content : Word) : pointer (memory.set address content) = pointer memory := by
  unfold pointer
  rw [Memory.get_set, if_neg fun same => differ same.1]

section

variable {memory : Memory} (low : MemoryMap.stack ≤ (pointer memory).toNat)

include low

theorem pointer_ne {address : Word} (small : address.toNat < MemoryMap.stack) :
    pointer memory ≠ address := by
  rintro rfl
  omega

/-- The value does not hide the stack pointer, which is read again after it was written. -/
theorem push_eq (value : Word) :
    push value memory =
      (memory.set (pointer memory) value).set Register.sp.cell (pointer memory + 1) := by
  unfold push
  dsimp only
  rw [pointer_set (pointer_ne low (by decide))]

/-- Lowering the stack pointer after a push leaves the pushed value behind, and nothing else. -/
theorem lower_push (value : Word) :
    lower (push value memory) = memory.set (pointer memory) value := by
  have kept : pointer (memory.set (pointer memory) value) = pointer memory :=
    pointer_set (pointer_ne low (by decide)) value
  have raised : pointer (push value memory) = pointer memory + 1 := by
    rw [push_eq low, pointer, Memory.get_set, if_pos ⟨rfl, by decide⟩]
  calc lower (push value memory)
      = (memory.set (pointer memory) value).set Register.sp.cell (pointer memory) := by
        rw [lower, raised, BitVec.add_sub_cancel, push_eq low, Memory.set_set]
    _ = (memory.set (pointer memory) value).set Register.sp.cell
          (pointer (memory.set (pointer memory) value)) := by rw [kept]
    _ = memory.set (pointer memory) value := Memory.set_get _ _

/-- A push commutes with a write to a low cell other than the stack pointer. -/
theorem set_push {address : Word} (small : address.toNat < MemoryMap.stack)
    (differ : address ≠ Register.sp.cell) (value content : Word) :
    (push value memory).set address content = push value (memory.set address content) := by
  have unmoved : pointer (memory.set address content) = pointer memory :=
    pointer_set differ content
  have lowThen : MemoryMap.stack ≤ (pointer (memory.set address content)).toNat := by
    rw [unmoved]
    exact low
  rw [push_eq low, push_eq lowThen, unmoved, Memory.set_comm _ differ.symm,
    Memory.set_comm _ (pointer_ne low small)]

theorem get_push {address : Word} (small : address.toNat < MemoryMap.stack)
    (differ : address ≠ Register.sp.cell) (value : Word) :
    (push value memory).get address = memory.get address := by
  rw [push_eq low, Memory.get_set, if_neg fun same => differ same.1.symm, Memory.get_set,
    if_neg fun same => pointer_ne low small same.1]

/-- A pop after a push takes the pushed value to its target. -/
theorem popTo_push (high : (pointer memory).toNat < MemoryMap.ramSize) (target value : Word) :
    popTo target (push value memory) =
      (memory.set (pointer memory) value).set target value := by
  have kept : pointer (memory.set (pointer memory) value) = pointer memory :=
    pointer_set (pointer_ne low (by decide)) value
  unfold popTo
  dsimp only
  rw [lower_push low, kept, Memory.get_set, if_pos ⟨rfl, high⟩]

end

end Stack

/-! ## Both moves in memory -/

section

variable {memory : Memory} {segment : Segment} {index cell : Word} {statics : Word → Word}

/-- The registers that hold base addresses are low cells other than the stack pointer. -/
theorem Segment.cell_of_base? {base : Register} (known : segment.base? = some base) :
    base.cell.toNat < MemoryMap.stack ∧ base.cell ≠ Register.sp.cell := by
  cases segment <;> cases known <;> decide

/-- Memory after a push and a pop: before the value is written to both places, a pop through a base
register puts the address of its cell into the scratch cell. -/
theorem perform_push_pop (low : MemoryMap.stack ≤ (Stack.pointer memory).toNat)
    (high : (Stack.pointer memory).toNat < MemoryMap.ramSize)
    (found : segment.cell? statics memory index = some cell) :
    (Command.move .pop segment index).perform statics
        ((Command.move .push segment index).perform statics memory) =
      ((if segment.base?.isSome then memory.set (.ofNat 16 MemoryMap.scratch) cell
          else memory).set (Stack.pointer memory) (memory.get cell)).set cell
        (memory.get cell) := by
  rw [Command.perform_push found]
  cases known : segment.base? with
  | none =>
    -- such a cell does not depend on memory
    have again : segment.cell? statics (Stack.push (memory.get cell) memory) index = some cell := by
      cases segment <;> first | exact found | cases known
    rw [Command.perform_pop known again, Stack.popTo_push low high]
    rfl
  | some base =>
    obtain ⟨small, differ⟩ := Segment.cell_of_base? known
    rw [Segment.cell?_of_base? known, Option.some.injEq] at found
    have apart : BitVec.ofNat 16 MemoryMap.scratch ≠ Register.sp.cell := by decide
    have unmoved : Stack.pointer (memory.set (.ofNat 16 MemoryMap.scratch) cell) =
        Stack.pointer memory := Stack.pointer_set apart cell
    rw [Command.perform_pop_indirect known, Stack.get_push low small differ, found,
      Stack.set_push low (by decide) apart, Stack.popTo_push (by rw [unmoved]; exact low)
        (by rw [unmoved]; exact high), unmoved]
    rfl

/-- A value that is written to two cells is found in both, whether or not they are one. -/
theorem get_written_twice (memory : Memory) (first second value address : Word) :
    ((memory.set first value).set second value).get address =
      if (first = address ∧ first.toNat < MemoryMap.ramSize) ∨
          (second = address ∧ second.toNat < MemoryMap.ramSize) then value
      else memory.get address := by
  rw [Memory.get_set, Memory.get_set, ite_or]
  split <;> split <;> rfl

theorem restores_push_pop (low : MemoryMap.stack ≤ (Stack.pointer memory).toNat)
    (high : (Stack.pointer memory).toNat < MemoryMap.ramSize)
    (found : segment.cell? statics memory index = some cell) :
    Restores segment cell memory
      ((Command.move .pop segment index).perform statics
        ((Command.move .push segment index).perform statics memory)) := by
  have apart : Stack.pointer memory ≠ .ofNat 16 MemoryMap.scratch :=
    Stack.pointer_ne low (by decide)
  rw [perform_push_pop low high found]
  constructor
  case value => rw [get_written_twice, if_pos (Or.inl ⟨rfl, high⟩)]
  case others =>
    intro address notFree notScratch
    rw [get_written_twice]
    split
    · next written =>
      -- it is the cell itself, which gets the value that it had
      rcases written with ⟨free, _⟩ | ⟨same, _⟩
      · exact absurd free.symm notFree
      · rw [same]
    · split
      · rw [Memory.get_set, if_neg fun same => notScratch same.1.symm]
      · rfl
  case scratch =>
    rintro (unbased | rfl)
    · rw [get_written_twice, unbased]
      split
      · next written =>
        rcases written with ⟨free, _⟩ | ⟨same, _⟩
        · exact absurd free apart
        · rw [same]
      · rfl
    · rw [get_written_twice, if_pos (Or.inr ⟨rfl, by decide⟩)]
  case address =>
    intro based other
    rw [get_written_twice, if_pos based]
    split
    · next written =>
      rcases written with ⟨free, _⟩ | ⟨same, _⟩
      · exact absurd free apart
      · exact absurd same other
    · rw [Memory.get_set, if_pos ⟨rfl, by decide⟩]

end

theorem Segment.exists_cell? {segment : Segment} (cells : segment ≠ .constant)
    (statics : Word → Word) (memory : Memory) (index : Word) :
    ∃ cell, segment.cell? statics memory index = some cell := by
  cases segment with
  | constant => exact absurd rfl cells
  | _ => exact ⟨_, rfl⟩

/-! ## Both moves as a program -/

section

variable {unit : Option String} {segment : Segment} {index : Word}

theorem Compiles.of_option {direction : Direction} {code : Program}
    (compiled : Code.move unit direction segment index = .ok code) :
    Compiles (unit.getD "") (.move direction segment index) code := by
  cases unit with
  | some name => exact .of_move compiled
  | none => exact .of_move (move_of_unnamed compiled "")

/-- A cell that can be pushed can be popped to. -/
theorem Code.exists_pop_of_push {pushed : Program} (cells : segment ≠ .constant)
    (compiled : Code.move unit .push segment index = .ok pushed) :
    ∃ popped, Code.move unit .pop segment index = .ok popped := by
  obtain ⟨reached, granted, _⟩ := Code.move_eq_ok_iff.1 compiled
  have named : access (some (unit.getD "")) index segment = .ok reached := by
    cases unit with
    | some name => exact granted
    | none => exact access_of_unnamed granted ""
  obtain ⟨popped, code⟩ := Code.exists_pop_of_cells cells named
  exact ⟨popped, Code.move_eq_ok_iff.2 ⟨reached, granted, Or.inr ⟨rfl, cells, code⟩⟩⟩

end

theorem length_symbolNames_le (program : Program) :
    program.symbolNames.length ≤ program.wordCount := by
  induction program with
  | nil => exact Nat.le_refl 0
  | cons statement rest ih =>
    rw [Program.wordCount_cons]
    cases statement with
    | load operand =>
      cases operand with
      | value n => exact Nat.le_trans ih (Nat.le_add_left _ _)
      | symbol name => exact Nat.add_comm _ 1 ▸ Nat.succ_le_succ ih
    | _ => exact Nat.le_trans ih (Nat.le_add_left _ _)

theorem Command.words_move_le (direction : Direction) (segment : Segment) (index : Word) :
    (Command.move direction segment index).words ≤ 12 := by
  cases direction <;> unfold Command.words <;> dsimp only <;> split <;> decide

section

variable {unit : String} {segment : Segment} {index : Word} {pushed popped : Program}
  (push : Compiles unit (.move .push segment index) pushed)
  (pop : Compiles unit (.move .pop segment index) popped)

include push pop

theorem exists_assemble_push_pop : ∃ rom, Rom.assemble (pushed ++ popped) = .ok rom := by
  have labels : (pushed ++ popped).labelNames = [] := by
    rw [Program.labelNames_append, push.labelNames_of_plain rfl, pop.labelNames_of_plain rfl]
    rfl
  have words : (pushed ++ popped).wordCount ≤ 24 := by
    have pushWords := Command.words_move_le .push segment index
    have popWords := Command.words_move_le .pop segment index
    rw [Program.wordCount_append, push.wordCount, pop.wordCount]
    omega
  have symbols := length_symbolNames_le (pushed ++ popped)
  refine Rom.exists_assemble ?_ ?_ ?_
  · rw [labels]
    exact List.nodup_nil
  · exact Nat.le_trans words (by decide)
  · have room : MemoryMap.firstVariable + 24 ≤ MemoryMap.stack := by decide
    omega

end

end VM

namespace Machine

open VM

/-- The run of a push from a cell and a pop to it ends behind the last instruction. -/
theorem exists_run_push_pop {unit : String} {segment : Segment} {index : Word}
    {pushed popped : Program} {rom : Rom} (cells : segment ≠ .constant)
    (push : Compiles unit (.move .push segment index) pushed)
    (pop : Compiles unit (.move .pop segment index) popped)
    (assembled : Rom.assemble (pushed ++ popped) = .ok rom) {memory : Memory} {limit : Nat}
    (low : MemoryMap.stack ≤ (Stack.pointer memory).toNat)
    (high : (Stack.pointer memory).toNat < MemoryMap.ramSize)
    (enough : MemoryMap.romSize ≤ limit) :
    ∃ cell n last, segment.cell? (staticCell rom unit) memory index = some cell ∧
      run limit (boot rom memory) = (n, last) ∧ last.halted = false ∧ last.pc = rom.size ∧
      Restores segment cell memory last.ram := by
  have labels (name : String) (member : .label name ∈ pushed ++ popped) :
      IsComparisonLabel name := by
    rcases List.mem_append.1 member with inPush | inPop
    · exact push.isComparisonLabel inPush
    · exact pop.isComparisonLabel inPop
  have names : rom.Conventional := conventional_of_assemble assembled labels
  have placed : rom.Placed 0 pushed ∧ rom.Placed (0 + pushed.wordCount) popped :=
    Rom.placed_append.1 (Rom.placed_of_assemble assembled)
  obtain ⟨middle, first, ram⟩ :=
    crosses_of_compiles (m := boot rom memory) push placed.1 names rfl
  have later : middle.rom.Placed middle.pc popped := by
    rw [first.rom_eq, first.pc_eq]
    exact placed.2
  have namesThen : middle.rom.Conventional := by
    rw [first.rom_eq]
    exact names
  obtain ⟨last, second, ramLast⟩ := crosses_of_compiles pop later namesThen first.running
  have crosses := first.append second
  obtain ⟨n, ran, pc⟩ := exists_run_of_crosses assembled crosses enough
  obtain ⟨cell, found⟩ := Segment.exists_cell? cells (staticCell rom unit) memory index
  refine ⟨cell, n, last, found, ran, crosses.running, pc, ?_⟩
  rw [ramLast, ram, first.rom_eq]
  exact restores_push_pop low high found

/-- **A pop to the cell of a push restores memory.** Whatever cell of a segment can be pushed, it
can be popped to; the code of both moves is assembled, and from every memory with the stack between
the variables and the end of the memory its run ends behind the last instruction and leaves memory
as it was, but for the pushed value above the stack and the scratch cell of an indirect pop. -/
theorem run_push_pop {compiler later : Compiler} {segment : Segment} {index : Word}
    {pushed : Program} (cells : segment ≠ .constant)
    (accepted : compiler.command (.move .push segment index) = (.ok pushed, later)) :
    ∃ popped, later.command (.move .pop segment index) = (.ok popped, later) ∧
      ∃ rom, Rom.assemble (pushed ++ popped) = .ok rom ∧
        ∀ (memory : Memory) (limit : Nat),
          MemoryMap.stack ≤ (Stack.pointer memory).toNat →
          (Stack.pointer memory).toNat < MemoryMap.ramSize → MemoryMap.romSize ≤ limit →
          ∃ cell n last,
            segment.cell? (staticCell rom (compiler.unit.getD "")) memory index = some cell ∧
            run limit (boot rom memory) = (n, last) ∧ last.halted = false ∧ last.pc = rom.size ∧
            Restores segment cell memory last.ram := by
  have compiled : Code.move compiler.unit .push segment index = .ok pushed :=
    congrArg Prod.fst accepted
  have unchanged : compiler = later := congrArg Prod.snd accepted
  subst unchanged
  obtain ⟨popped, compiledPop⟩ := Code.exists_pop_of_push cells compiled
  have push := Compiles.of_option compiled
  have pop := Compiles.of_option compiledPop
  obtain ⟨rom, assembled⟩ := exists_assemble_push_pop push pop
  refine ⟨popped, ?_, rom, assembled, ?_⟩
  · rw [Compiler.command, compiledPop]
  · intro memory limit low high enough
    exact exists_run_push_pop cells push pop assembled low high enough

/-- The stack pointer holds 256 and the base register of the local variables zero, so that the
stack pointer itself is pushed and popped to. -/
theorem run_push_pop_stackPointer :
    ∃ pushed, Compiler.command (.start (some "Main")) (.move .push .locals 0) =
        (.ok pushed, .start (some "Main")) ∧
      ∃ popped rom, Rom.assemble (pushed ++ popped) = .ok rom ∧
        ∃ n last, run 32768 (boot rom (Memory.zero.set 0 256)) = (n, last) ∧
          last.pc = rom.size ∧ last.ram.get 0 = 256 ∧ last.ram.get 256 = 256 ∧
          last.ram.get 13 = 0 := by
  have accepted : Compiler.command (.start (some "Main")) (.move .push .locals 0) =
      (.ok _, .start (some "Main")) := rfl
  have pointer : Stack.pointer (Memory.zero.set 0 256) = 256 := by
    rw [Stack.pointer, Memory.get_set, if_pos ⟨rfl, by decide⟩]
  obtain ⟨popped, _, rom, assembled, restored⟩ := run_push_pop (by decide) accepted
  obtain ⟨cell, n, last, found, ran, _, pc, restores⟩ := restored (Memory.zero.set 0 256) 32768
    (by rw [pointer]; decide) (by rw [pointer]; decide) (by decide)
  have address : cell = 0 := by
    rw [Segment.cell?_of_base? rfl, Option.some.injEq, Memory.get_set,
      if_neg (by decide), Memory.get_zero] at found
    exact found.symm
  subst address
  refine ⟨_, accepted, popped, rom, assembled, n, last, ran, pc, ?_, ?_, ?_⟩
  · rw [restores.others 0 (by rw [pointer]; decide) (by decide)]
    exact pointer
  · have value := restores.value
    rw [pointer] at value
    exact value.trans pointer
  · exact restores.address rfl (by decide)

end Machine

end Hack
