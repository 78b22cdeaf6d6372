import Hack.Proofs.VM.Comparison

/-!
Compiled code does what its commands mean.

From any content of the registers and of the memory, the machine crosses the code of a command and
leaves the memory that the command leaves (`crosses_of_compiles`). No cell is assumed to be apart
from any other: the code reads and writes in the order in which the command does.
-/

namespace Hack

open Assembly

namespace VM

/-! ## Cells of segments -/

theorem Segment.cell?_of_base? {segment : Segment} {base : Register}
    (known : segment.base? = some base) (statics : Word → Word) (memory : Memory) (index : Word) :
    segment.cell? statics memory index = some (memory.get base.cell + index) := by
  cases segment <;> cases known <;> rfl

/-- The cell that a direct access loads is that of the segment. -/
theorem Reached.cell?_of_direct {rom : Rom} (names : rom.Conventional) {unit : String}
    {index : Word} {segment : Segment} {address : Statement}
    (reached : Reached unit index segment (.direct address))
    {base : Nat} {code : Program} (placed : rom.Placed base code) (member : address ∈ code)
    (memory : Memory) :
    ∃ cell, address.link? rom.addressOf? = some (.load cell) ∧ segment.base? = none ∧
      segment.cell? (staticCell rom unit) memory index = some cell := by
  have offset (n : Nat) : BitVec.ofNat 16 (n + index.toNat) = .ofNat 16 n + index := by
    rw [BitVec.ofNat_add, BitVec.ofNat_toNat, BitVec.setWidth_eq]
  cases reached with
  | temp => exact ⟨_, rfl, rfl, congrArg some (offset MemoryMap.temp).symm⟩
  | pointer => exact ⟨_, rfl, rfl, congrArg some (offset MemoryMap.pointer).symm⟩
  | statics =>
    rcases Rom.exists_link?_of_placed placed member with ⟨instr, linked⟩
    rcases Option.map_eq_some_iff.1 linked with ⟨cell, found, rfl⟩
    refine ⟨_, linked, rfl, ?_⟩
    rw [names.statics] at found
    simp [Segment.cell?, staticCell, found]

/-! ## Operators in memory -/

theorem Operator.perform_unary {op : Operator} {f : Word → Word} (action : op.action = .unary f)
    (memory : Memory) :
    op.perform memory =
      memory.set (Stack.pointer memory - 1) (f (memory.get (Stack.pointer memory - 1))) := by
  unfold Operator.perform
  rw [action]

theorem Operator.perform_binary {op : Operator} {f : Word → Word → Word}
    (action : op.action = .binary f) (memory : Memory) :
    op.perform memory =
      (Stack.lower memory).set (Stack.pointer memory - 1 - 1)
        (f ((Stack.lower memory).get (Stack.pointer memory - 1 - 1))
          ((Stack.lower memory).get (Stack.pointer memory - 1))) := by
  unfold Operator.perform
  rw [action]
  dsimp only
  rw [Stack.pointer_lower]

/-! ## Moves in memory -/

section Moves

variable {segment : Segment} {index cell : Word} {statics : Word → Word} {memory : Memory}

theorem Command.perform_push (found : segment.cell? statics memory index = some cell) :
    (Command.move .push segment index).perform statics memory =
      Stack.push (memory.get cell) memory := by
  simp only [Command.perform, found]

theorem Command.perform_pop (unbased : segment.base? = none)
    (found : segment.cell? statics memory index = some cell) :
    (Command.move .pop segment index).perform statics memory = Stack.popTo cell memory := by
  simp [Command.perform, found, unbased]

/-- A pop through a base register leaves the address in the scratch cell. -/
theorem Command.perform_pop_indirect {base : Register} (known : segment.base? = some base) :
    (Command.move .pop segment index).perform statics memory =
      Stack.popTo (memory.get base.cell + index)
        (memory.set (.ofNat 16 MemoryMap.scratch) (memory.get base.cell + index)) := by
  simp [Command.perform, Segment.cell?_of_base? known, known]

end Moves

end VM

namespace Machine

open VM

section

variable {m : Machine} {unit : String}

/-! ## One command -/

theorem crosses_unary {op : Operator} {comp : Comp} {f : Word → Word}
    (placed : m.rom.Placed m.pc (Code.unary comp)) (names : m.rom.Conventional)
    (running : m.halted = false) (action : op.action = .unary f) (reads : comp.readsMemory = true)
    (meaning : ∀ x y, comp.eval x y = f y) :
    ∃ last, Crosses m (Code.unary comp) last ∧ last.ram = op.perform m.ram := by
  refine ⟨_, crosses_follow placed rfl running, ?_⟩
  rw [follow_unary names, if_pos reads, meaning, Operator.perform_unary action]

theorem crosses_binary {op : Operator} {comp : Comp} {f : Word → Word → Word}
    (placed : m.rom.Placed m.pc (Code.binary comp)) (names : m.rom.Conventional)
    (running : m.halted = false) (action : op.action = .binary f)
    (reads : comp.readsMemory = true) (meaning : ∀ x y, comp.eval y x = f x y) :
    ∃ last, Crosses m (Code.binary comp) last ∧ last.ram = op.perform m.ram := by
  refine ⟨_, crosses_follow placed rfl running, ?_⟩
  rw [follow_binary names, if_pos reads, meaning, Operator.perform_binary action]

theorem crosses_comparison {op : Operator} {jump : Jump} {labels : LabelPair}
    (placed : m.rom.Placed m.pc (Code.compare jump labels)) (names : m.rom.Conventional)
    (running : m.halted = false)
    (action : op.action = .binary fun x y => truth (jump.test (x - y))) :
    ∃ last, Crosses m (Code.compare jump labels) last ∧ last.ram = op.perform m.ram := by
  rw [Operator.perform_binary action]
  exact crosses_compare placed names running

theorem crosses_operate {labels : LabelPair} {op : Operator}
    (placed : m.rom.Placed m.pc (Code.operate labels op)) (names : m.rom.Conventional)
    (running : m.halted = false) :
    ∃ last, Crosses m (Code.operate labels op) last ∧ last.ram = op.perform m.ram := by
  -- the second operand is in `D`, so the machine has the operands the other way round
  cases op with
  | add => exact crosses_binary placed names running rfl rfl fun x y => BitVec.add_comm y x
  | sub => exact crosses_binary placed names running rfl rfl fun _ _ => rfl
  | neg => exact crosses_unary placed names running rfl rfl fun _ _ => rfl
  | eq => exact crosses_comparison placed names running rfl
  | gt => exact crosses_comparison placed names running rfl
  | lt => exact crosses_comparison placed names running rfl
  | and => exact crosses_binary placed names running rfl rfl fun x y => BitVec.and_comm y x
  | or => exact crosses_binary placed names running rfl rfl fun x y => BitVec.or_comm y x
  | not => exact crosses_unary placed names running rfl rfl fun _ _ => rfl

theorem crosses_push {segment : Segment} {index : Word} {reached : Access}
    (access : Reached unit index segment reached)
    (placed : m.rom.Placed m.pc (Code.push reached)) (names : m.rom.Conventional)
    (running : m.halted = false) :
    ∃ last, Crosses m (Code.push reached) last ∧
      last.ram = (Command.move .push segment index).perform (staticCell m.rom unit) m.ram := by
  cases reached with
  | literal value =>
    cases access
    refine ⟨_, crosses_follow placed rfl running, ?_⟩
    rw [follow_push_literal names rfl, BitVec.ofNat_toNat, BitVec.setWidth_eq]
    rfl
  | indirect base offset =>
    obtain @⟨⟩ | known := access
    refine ⟨_, crosses_follow placed rfl running, ?_⟩
    rw [follow_push_indirect names rfl, BitVec.ofNat_toNat, BitVec.setWidth_eq,
      Command.perform_push (Segment.cell?_of_base? known _ _ _)]
  | direct address =>
    obtain ⟨cell, linked, _, found⟩ :=
      access.cell?_of_direct names placed List.mem_cons_self m.ram
    refine ⟨_, crosses_follow placed ?_ running, ?_⟩
    · cases access <;> rfl
    · rw [follow_push_direct names linked, Command.perform_push found]

theorem crosses_pop {segment : Segment} {index : Word} {reached : Access} {code : Program}
    (access : Reached unit index segment reached) (popped : Code.pop reached = .ok code)
    (placed : m.rom.Placed m.pc code) (names : m.rom.Conventional) (running : m.halted = false) :
    ∃ last, Crosses m code last ∧
      last.ram = (Command.move .pop segment index).perform (staticCell m.rom unit) m.ram := by
  cases reached with
  | literal value => cases popped
  | indirect base offset =>
    cases popped
    obtain @⟨⟩ | known := access
    refine ⟨_, crosses_follow placed rfl running, ?_⟩
    rw [follow_pop_indirect names rfl, BitVec.ofNat_toNat, BitVec.setWidth_eq,
      Command.perform_pop_indirect known]
  | direct address =>
    cases popped
    obtain ⟨cell, linked, unbased, found⟩ := access.cell?_of_direct names placed
      (List.mem_append_right _ List.mem_cons_self) m.ram
    refine ⟨_, crosses_follow placed ?_ running, ?_⟩
    · cases access <;> rfl
    · rw [follow_pop_direct names linked, Command.perform_pop unbased found]

/-- The machine crosses the code of a command and leaves the memory that the command leaves. -/
theorem crosses_of_compiles {command : Command} {code : Program}
    (compiled : Compiles unit command code) (placed : m.rom.Placed m.pc code)
    (names : m.rom.Conventional) (running : m.halted = false) :
    ∃ last, Crosses m code last ∧
      last.ram = command.perform (staticCell m.rom unit) m.ram := by
  cases compiled with
  | operate number op => exact crosses_operate placed names running
  | push access => exact crosses_push access placed names running
  | pop access popped => exact crosses_pop access popped placed names running

end

end Machine

end Hack
