import Hack.Proofs.Machine.Steps
import Hack.Proofs.VM.Names

/-!
What the machine does with compiled code.

Code without branches is executed statement by statement: `Machine.follow` is the machine after a
piece of it, and `crosses_follow` says that the machine really gets there when the piece stands at
its program counter. Each piece of compiled code has one equation for `follow`; the equations
compose along `++`, so the code of a command is read off its pieces.
-/

namespace Hack

open Assembly VM

/-! ## The stack in memory -/

namespace VM.Stack

/-- A lowered stack pointer is one less, whatever cells the stack takes up. -/
theorem pointer_lower (memory : Memory) : pointer (lower memory) = pointer memory - 1 := by
  unfold pointer lower
  rw [Memory.get_set, if_pos ⟨rfl, by decide⟩]
  rfl

/-- Lowering the stack pointer keeps every other cell. -/
theorem get_lower_of_ne (memory : Memory) {address : Word} (differ : address ≠ Register.sp.cell) :
    (lower memory).get address = memory.get address := by
  unfold lower
  rw [Memory.get_set, if_neg fun same => differ same.1.symm]

end VM.Stack

namespace Machine

/-! ## Code without branches -/

/-- The machine after one statement, which takes no time if it is no instruction. -/
def carryOut (m : Machine) (statement : Statement) : Machine :=
  match statement.link? m.rom.addressOf? with
  | some instr => m.execute instr
  | none => m

/-- The machine after a piece of code that is executed from its first statement to its last. -/
def follow (m : Machine) (code : Program) : Machine := code.foldl carryOut m

@[simp] theorem follow_nil (m : Machine) : m.follow [] = m := rfl

@[simp] theorem follow_cons (m : Machine) (statement : Statement) (rest : Program) :
    m.follow (statement :: rest) = (m.carryOut statement).follow rest := rfl

theorem follow_append (m : Machine) (front back : Program) :
    m.follow (front ++ back) = (m.follow front).follow back := List.foldl_append

end Machine

/-- Whether a statement always leads to the one behind it. -/
def Assembly.Statement.isStraight : Statement → Bool
  | .compute _ _ jump => jump == .never
  | .load _ | .label _ | .comment _ => true

namespace Machine

/-- The machine gets to the end of the code at its program counter and goes on from there; no
instruction of the code is executed twice. -/
structure Crosses (m : Machine) (code : Program) (last : Machine) : Prop where
  steps : ∃ n ≤ code.wordCount, Steps n m last
  pc_eq : last.pc = m.pc + code.wordCount
  running : last.halted = false

theorem Crosses.nil {m : Machine} (running : m.halted = false) : Crosses m [] m :=
  ⟨⟨0, Nat.le_refl 0, .refl m⟩, rfl, running⟩

theorem Crosses.rom_eq {m last : Machine} {code : Program} (crosses : Crosses m code last) :
    last.rom = m.rom := by
  obtain ⟨n, _, steps⟩ := crosses.steps
  exact steps.rom_eq

theorem Crosses.append {m middle last : Machine} {front back : Program}
    (first : Crosses m front middle) (second : Crosses middle back last) :
    Crosses m (front ++ back) last := by
  obtain ⟨n, few, steps⟩ := first.steps
  obtain ⟨k, fewer, later⟩ := second.steps
  refine ⟨⟨n + k, ?_, steps.trans later⟩, ?_, second.running⟩
  · rw [Program.wordCount_append]
    exact Nat.add_le_add few fewer
  · rw [second.pc_eq, first.pc_eq, Program.wordCount_append, Nat.add_assoc]

theorem execute_of_isStraight {statement : Statement} (straight : statement.isStraight = true)
    {addressOf? : String → Option Nat} {instr : Instr}
    (linked : statement.link? addressOf? = some instr) (m : Machine) :
    (m.execute instr).pc = m.pc + 1 ∧ (m.execute instr).halted = m.halted := by
  cases statement with
  | load operand =>
    cases operand with
    | value n => cases linked; exact ⟨rfl, rfl⟩
    | symbol name =>
      obtain ⟨address, _, rfl⟩ := Option.map_eq_some_iff.1 linked
      exact ⟨rfl, rfl⟩
  | compute dest comp jump =>
    cases eq_of_beq straight
    cases linked
    exact ⟨rfl, rfl⟩
  | label name => cases linked
  | comment text => cases linked

/-- An instruction that is no branch is crossed in one step. -/
theorem crosses_single {m : Machine} {statement : Statement} {instr : Instr}
    (straight : statement.isStraight = true)
    (linked : statement.link? m.rom.addressOf? = some instr)
    (fetched : m.rom.get? m.pc = some instr) (running : m.halted = false) :
    Crosses m [statement] (m.carryOut statement) := by
  obtain ⟨pc, halted⟩ := execute_of_isStraight straight linked m
  have next : m.carryOut statement = m.execute instr := by
    unfold carryOut
    rw [linked]
  have width : Program.wordCount [statement] = 1 := by
    cases statement with
    | load operand => rfl
    | compute dest comp jump => rfl
    | label name => cases linked
    | comment text => cases linked
  rw [next]
  refine ⟨⟨1, ?_, .single (step?_of_get? running fetched)⟩, ?_, halted.trans running⟩
  · exact Nat.le_of_eq width.symm
  · rw [pc, width]

/-- Code without branches is executed from its first statement to its last. -/
theorem crosses_follow {m : Machine} {code : Program} (placed : m.rom.Placed m.pc code)
    (straight : code.all Statement.isStraight = true) (running : m.halted = false) :
    Crosses m code (m.follow code) := by
  induction code generalizing m with
  | nil => exact .nil running
  | cons statement rest ih =>
    obtain ⟨here, later⟩ := placed
    rw [List.all_cons, Bool.and_eq_true] at straight
    obtain ⟨straightHere, straightLater⟩ := straight
    -- the rest stands where the first statement leads, in the same instruction memory
    suffices first : Crosses m [statement] (m.carryOut statement) by
      refine first.append (ih ?_ straightLater first.running)
      rw [first.rom_eq, first.pc_eq, Program.wordCount_cons, Program.wordCount_nil, Nat.add_zero]
      exact later
    cases statement with
    | load operand =>
      obtain ⟨instr, linked, fetched⟩ := here
      exact crosses_single straightHere linked fetched running
    | compute dest comp jump =>
      obtain ⟨instr, linked, fetched⟩ := here
      exact crosses_single straightHere linked fetched running
    | label name => exact ⟨⟨0, Nat.le_refl 0, .refl m⟩, rfl, running⟩
    | comment text => exact ⟨⟨0, Nat.le_refl 0, .refl m⟩, rfl, running⟩

/-! ## Single statements -/

theorem carryOut_load {m : Machine} {statement : Statement} {v : Word}
    (linked : statement.link? m.rom.addressOf? = some (.load v)) :
    m.carryOut statement = { m with a := v, pc := m.pc + 1 } := by
  unfold carryOut
  rw [linked]
  rfl

theorem carryOut_register {m : Machine} (names : m.rom.Conventional) (register : Register) :
    m.carryOut (.register register) = { m with a := register.cell, pc := m.pc + 1 } := by
  refine carryOut_load ?_
  simp only [Statement.register, Statement.symbol, Statement.link?,
    names.predefined (predefined?_register register), Option.map_some]
  rfl

theorem carryOut_scratch {m : Machine} (names : m.rom.Conventional) :
    m.carryOut (.symbol (cellName MemoryMap.scratch)) =
      { m with a := .ofNat 16 MemoryMap.scratch, pc := m.pc + 1 } := by
  refine carryOut_load ?_
  simp only [Statement.symbol, Statement.link?, names.predefined predefined?_scratch,
    Option.map_some]

theorem carryOut_set (m : Machine) (dest : Dest) (comp : Comp) :
    m.carryOut (.set dest comp) =
      { m with
        ram := if dest.m then m.ram.set m.a (comp.eval m.d (m.operand comp)) else m.ram
        a := if dest.a then comp.eval m.d (m.operand comp) else m.a
        d := if dest.d then comp.eval m.d (m.operand comp) else m.d
        pc := m.pc + 1 } := rfl

/-! ## Pieces of compiled code -/

section Pieces

variable {m : Machine}

theorem follow_pushD (names : m.rom.Conventional) :
    m.follow Code.pushD =
      { m with a := Register.sp.cell, ram := Stack.push m.d m.ram, pc := m.pc + 5 } := by
  simp [Code.pushD, carryOut_register, carryOut_set, names, Comp.eval, operand, Comp.readsMemory,
    Comp.source?, Stack.push, Stack.pointer]

theorem follow_popD (names : m.rom.Conventional) :
    m.follow Code.popD =
      { m with
        a := Stack.pointer m.ram - 1
        d := (Stack.lower m.ram).get (Stack.pointer m.ram - 1)
        ram := Stack.lower m.ram
        pc := m.pc + 3 } := by
  simp [Code.popD, carryOut_register, carryOut_set, names, Comp.eval, operand, Comp.readsMemory,
    Comp.source?, Stack.lower, Stack.pointer]

theorem follow_top (names : m.rom.Conventional) :
    m.follow Code.top = { m with a := Stack.pointer m.ram - 1, pc := m.pc + 2 } := by
  simp [Code.top, carryOut_register, carryOut_set, names, Comp.eval, operand, Comp.readsMemory,
    Comp.source?, Stack.pointer]

theorem follow_popOperands (names : m.rom.Conventional) :
    m.follow Code.popOperands =
      { m with
        a := Stack.pointer m.ram - 1 - 1
        d := (Stack.lower m.ram).get (Stack.pointer m.ram - 1)
        ram := Stack.lower m.ram
        pc := m.pc + 4 } := by
  rw [Code.popOperands, follow_append, follow_popD names]
  simp [carryOut_set, Comp.eval, operand, Comp.readsMemory, Comp.source?]

theorem follow_binary (names : m.rom.Conventional) (comp : Comp) :
    (m.follow (Code.binary comp)).ram =
      (Stack.lower m.ram).set (Stack.pointer m.ram - 1 - 1)
        (comp.eval ((Stack.lower m.ram).get (Stack.pointer m.ram - 1))
          (if comp.readsMemory then (Stack.lower m.ram).get (Stack.pointer m.ram - 1 - 1)
            else Stack.pointer m.ram - 1 - 1)) := by
  rw [Code.binary, follow_append, follow_popOperands names]
  rfl

theorem follow_unary (names : m.rom.Conventional) (comp : Comp) :
    m.follow (Code.unary comp) =
      { m with
        a := Stack.pointer m.ram - 1
        ram := m.ram.set (Stack.pointer m.ram - 1) (comp.eval m.d
          (if comp.readsMemory then m.ram.get (Stack.pointer m.ram - 1)
            else Stack.pointer m.ram - 1))
        pc := m.pc + 3 } := by
  rw [Code.unary, follow_append, follow_top names]
  rfl

/-! ## Moves -/

theorem follow_push_literal (names : m.rom.Conventional) {value : Statement} {v : Word}
    (linked : value.link? m.rom.addressOf? = some (.load v)) :
    (m.follow (Code.push (.literal value))).ram = Stack.push v m.ram := by
  have fetched : m.follow [value, .set { d := true } (.y .a)] =
      { m with a := v, d := v, pc := m.pc + 2 } := by
    rw [follow_cons, carryOut_load linked]
    rfl
  rw [Code.push, follow_append, fetched, follow_pushD]
  exact names

theorem follow_push_direct (names : m.rom.Conventional) {address : Statement} {cell : Word}
    (linked : address.link? m.rom.addressOf? = some (.load cell)) :
    (m.follow (Code.push (.direct address))).ram = Stack.push (m.ram.get cell) m.ram := by
  have fetched : m.follow [address, .set { d := true } (.y .m)] =
      { m with a := cell, d := m.ram.get cell, pc := m.pc + 2 } := by
    rw [follow_cons, carryOut_load linked]
    rfl
  rw [Code.push, follow_append, fetched, follow_pushD]
  exact names

theorem follow_push_indirect (names : m.rom.Conventional) {base : Register} {offset : Statement}
    {index : Word} (linked : offset.link? m.rom.addressOf? = some (.load index)) :
    (m.follow (Code.push (.indirect base offset))).ram =
      Stack.push (m.ram.get (m.ram.get base.cell + index)) m.ram := by
  have fetched : m.follow
      [offset, .set { d := true } (.y .a), .register base, .set { a := true } (.dPlusY .m),
        .set { d := true } (.y .m)] =
      { m with
        a := m.ram.get base.cell + index
        d := m.ram.get (m.ram.get base.cell + index)
        pc := m.pc + 5 } := by
    rw [follow_cons, carryOut_load linked]
    simp [carryOut_register, carryOut_set, names, Comp.eval, operand, Comp.readsMemory,
      Comp.source?, BitVec.add_comm index]
  rw [Code.push, follow_append, fetched, follow_pushD]
  exact names

theorem follow_pop_direct (names : m.rom.Conventional) {address : Statement} {cell : Word}
    (linked : address.link? m.rom.addressOf? = some (.load cell)) :
    (m.follow (Code.popD ++ [address, .set { m := true } .d])).ram = Stack.popTo cell m.ram := by
  rw [follow_append, follow_popD names, follow_cons, carryOut_load (v := cell)]
  · simp [carryOut_set, Comp.eval, Stack.popTo, Stack.pointer_lower]
  · exact linked

theorem follow_pop_indirect (names : m.rom.Conventional) {base : Register} {offset : Statement}
    {index : Word} (linked : offset.link? m.rom.addressOf? = some (.load index)) :
    (m.follow
      ([offset, .set { d := true } (.y .a), .register base, .set { d := true } (.dPlusY .m),
          .symbol (cellName MemoryMap.scratch), .set { m := true } .d] ++ Code.popD ++
        [.symbol (cellName MemoryMap.scratch), .set { a := true } (.y .m),
          .set { m := true } .d])).ram =
      Stack.popTo (m.ram.get base.cell + index)
        (m.ram.set (.ofNat 16 MemoryMap.scratch) (m.ram.get base.cell + index)) := by
  have kept : m.follow
      [offset, .set { d := true } (.y .a), .register base, .set { d := true } (.dPlusY .m),
          .symbol (cellName MemoryMap.scratch), .set { m := true } .d] =
      { m with
        a := .ofNat 16 MemoryMap.scratch
        d := m.ram.get base.cell + index
        ram := m.ram.set (.ofNat 16 MemoryMap.scratch) (m.ram.get base.cell + index)
        pc := m.pc + 6 } := by
    rw [follow_cons, carryOut_load linked]
    simp [carryOut_register, carryOut_scratch, carryOut_set, names, Comp.eval, operand,
      Comp.readsMemory, Comp.source?, BitVec.add_comm index]
  rw [follow_append, follow_append, kept, follow_popD]
  · have target (memory : Memory) (cell : Word) :
        (Stack.lower (memory.set (.ofNat 16 MemoryMap.scratch) cell)).get
          (.ofNat 16 MemoryMap.scratch) = cell := by
      rw [Stack.get_lower_of_ne _ (by decide), Memory.get_set, if_pos ⟨rfl, by decide⟩]
    simp [carryOut_scratch, carryOut_set, names, Comp.eval, operand, Comp.readsMemory,
      Comp.source?, Stack.popTo, Stack.pointer_lower, target]
  · exact names

end Pieces

end Machine

end Hack
