import Hack.Proofs.Machine.Forward
import Hack.Proofs.Machine.Halting
import Mathlib.Algebra.Group.Nat.Defs

/-!
What holds of the machine however it is used.

From outside, a machine is written to, stepped and run, in any order (`Operation`). Whatever the
order, it keeps its program, every step finds its instruction inside the program and changes at most
the cell that `A` addressed before, and the halt flag is only ever set at the loop that ends a
program. Once a step finds no instruction, none ever will again: from then on the machine is changed
by the writes alone (`perform_of_stopped`).

Every machine on the way through a run is reached by single steps as well (`perform_replicate_step`),
so what is said here of the next step holds of every step in a run.
-/

namespace Hack.Machine

/-- What can be done with a machine from outside. -/
inductive Operation
  | write (address value : Word)
  | step
  | run (limit : Nat)
  deriving DecidableEq, Repr

/-- Whether an operation is a write. -/
def Operation.isWrite : Operation → Bool
  | .write .. => true
  | .step | .run _ => false

/-- The machine after an operation; a step of a machine that has stopped leaves it as it is. -/
def Operation.after (m : Machine) : Operation → Machine
  | .write address value => m.set address value
  | .step => m.step?.getD m
  | .run limit => (Machine.run limit m).2

/-- The machine after so many operations, in order. -/
def perform (m : Machine) (operations : List Operation) : Machine :=
  operations.foldl Operation.after m

variable {program : Assembly.Program} {rom : Rom} {m next : Machine}

theorem perform_cons (m : Machine) (operation : Operation) (rest : List Operation) :
    m.perform (operation :: rest) = (operation.after m).perform rest := rfl

/-- A run goes as far as so many single steps. -/
theorem perform_replicate_step (limit : Nat) (m : Machine) :
    m.perform (List.replicate limit .step) = (run limit m).2 := by
  induction limit generalizing m with
  | zero => rfl
  | succ limit ih =>
    rw [List.replicate_succ, perform_cons, ih]
    cases step : m.step? with
    | none =>
      have stopped := (step?_eq_none_iff m).1 step
      simp only [Operation.after, step, Option.getD_none, run_of_stopped _ stopped]
    | some next => simp only [Operation.after, step, Option.getD_some, run_succ_of_step limit step]

theorem Reachable.after (reachable : Reachable rom m) (operation : Operation) :
    Reachable rom (operation.after m) := by
  cases operation with
  | write address value => exact .set address value reachable
  | run limit => exact .run limit reachable
  | step =>
    cases step : m.step? with
    | none => rwa [Operation.after, step, Option.getD_none]
    | some next =>
      rw [Operation.after, step, Option.getD_some]
      exact .step reachable step

theorem Reachable.perform (reachable : Reachable rom m) (operations : List Operation) :
    Reachable rom (m.perform operations) := by
  induction operations generalizing m with
  | nil => exact reachable
  | cons operation rest ih => exact ih (reachable.after operation)

/-! ## One step -/

/-- A step finds its instruction inside the program, and the counter goes on by one or to the
address in `A`. -/
theorem pc_of_step (step : m.step? = some next) :
    m.pc < m.rom.size ∧ (next.pc = m.pc + 1 ∨ next.pc = m.a.toNat) := by
  rcases step?_eq_some_iff.1 step with ⟨_, instr, fetched, rfl⟩
  refine ⟨pc_lt_of_get? fetched, ?_⟩
  rcases execute_pc m instr with further | ⟨dest, comp, jump, _, _, target⟩
  · exact Or.inl further
  · exact Or.inr target

/-- A step changes no cell but the one that `A` addressed before, and that only if the instruction
stores its result in memory and the memory has such a cell. -/
theorem get_of_step (step : m.step? = some next) {address : Word}
    (changed : next.get address ≠ m.get address) :
    address = m.a ∧ address.toNat < MemoryMap.ramSize ∧
      ∃ dest comp jump, m.rom.get? m.pc = some (.compute dest comp jump) ∧ dest.m = true := by
  rcases step?_eq_some_iff.1 step with ⟨_, instr, fetched, rfl⟩
  cases instr with
  | load value => exact absurd rfl changed
  | compute dest comp jump =>
    cases stored : dest.m with
    | false =>
      simp only [execute, stored, get, Bool.false_eq_true, if_false] at changed
      exact absurd rfl changed
    | true =>
      simp only [execute, stored, get, if_true, Memory.get_set] at changed
      split at changed
      · next same => exact ⟨same.1.symm, same.1 ▸ same.2, dest, comp, jump, fetched, stored⟩
      · exact absurd rfl changed

/-- The counter of a machine that was reached in any way fits in a word. -/
theorem Reachable.pc_lt (assembled : Rom.assemble program = .ok rom)
    (reachable : Reachable rom m) : m.pc < 2 ^ 16 := by
  have size := Rom.size_le_of_assemble assembled
  have room : MemoryMap.romSize < 2 ^ 16 := by decide
  have of_step {m next : Machine} (same : m.rom = rom) (step : m.step? = some next) :
      next.pc < 2 ^ 16 := by
    rcases pc_of_step step with ⟨inside, further | target⟩
    · rw [same] at inside
      omega
    · rw [target]
      exact m.a.isLt
  induction reachable with
  | start => exact Nat.two_pow_pos 16
  | set address value _ ih => exact ih
  | step reachable step _ => exact of_step reachable.rom_eq step
  | run limit reachable ih =>
    refine (Steps.invariant (P := fun m => m.rom = rom ∧ m.pc < 2 ^ 16) ?_
      (steps_run limit _) ⟨reachable.rom_eq, ih⟩).2
    intro m next before step
    exact ⟨(step?_rom step).trans before.1, of_step before.1 step⟩

/-! ## Machines that have stopped -/

theorem stopped_set (m : Machine) (address value : Word) :
    (m.set address value).stopped = m.stopped := rfl

/-- Of all operations only writes change a machine that has stopped. -/
theorem Operation.after_of_stopped (stopped : m.stopped = true) {operation : Operation}
    (other : operation.isWrite = false) : operation.after m = m := by
  cases operation with
  | write address value => cases other
  | step => rw [Operation.after, (step?_eq_none_iff m).2 stopped, Option.getD_none]
  | run limit => rw [Operation.after, run_of_stopped limit stopped]

/-- A machine that has stopped stays so, and is changed by writes alone. -/
theorem perform_of_stopped (stopped : m.stopped = true) (operations : List Operation) :
    (m.perform operations).stopped = true ∧
      m.perform operations = m.perform (operations.filter Operation.isWrite) := by
  induction operations generalizing m with
  | nil => exact ⟨stopped, rfl⟩
  | cons operation rest ih =>
    cases writes : operation.isWrite with
    | false =>
      rw [perform_cons, Operation.after_of_stopped stopped writes,
        List.filter_cons_of_neg (by rw [writes]; exact Bool.false_ne_true)]
      exact ih stopped
    | true =>
      rw [List.filter_cons_of_pos writes, perform_cons, perform_cons]
      refine ih ?_
      cases operation with
      | write address value => exact (stopped_set m address value).trans stopped
      | step | run => cases writes

/-! ## Every use -/

/-- What holds of a machine with the given program however it was used. -/
structure Sound (rom : Rom) (m : Machine) : Prop where
  rom_eq : m.rom = rom
  cells : m.ram.cells.toArray.size = MemoryMap.ramSize
  outside (address : Word) : MemoryMap.ramSize ≤ address.toNat → m.get address = 0
  counter : m.pc < 2 ^ 16
  /-- The counter is inside the program whenever it goes on, and the program ends where the
  instruction memory does, at the latest. -/
  fetch (next : Machine) : m.step? = some next →
    m.pc < rom.size ∧ rom.size ≤ MemoryMap.romSize ∧ (next.pc = m.pc + 1 ∨ next.pc = m.a.toNat)
  /-- A cell that a step changes. -/
  store (next : Machine) (address : Word) :
    m.step? = some next → next.get address ≠ m.get address →
      address = m.a ∧ address.toNat < MemoryMap.ramSize ∧
        ∃ dest comp jump, rom.get? m.pc = some (.compute dest comp jump) ∧ dest.m = true
  /-- Where the machine halts. -/
  loop : m.halted = true →
    rom.get? m.pc = some (.load (.ofNat 16 m.pc)) ∧
      ∃ dest comp, rom.get? (m.pc + 1) = some (.compute dest comp .always)
  /-- Once a step finds no instruction, steps and runs do nothing any more. -/
  rest (later : List Operation) : m.step? = none →
    (m.perform later).step? = none ∧
      (∀ limit, run limit (m.perform later) = (0, m.perform later)) ∧
      m.perform later = m.perform (later.filter Operation.isWrite)

/-- **A machine with an assembled program is sound however it is used.** After any sequence of
writes, steps and runs it has its program, all cells and a counter that fits in a word; a step fetches
inside the program, and changes the cell that `A` addresses or none; it halts at a loop only, and a
machine that has stopped stays so. -/
theorem sound_perform (assembled : Rom.assemble program = .ok rom)
    (operations : List Operation) : Sound rom ((start rom).perform operations) := by
  have reachable : Reachable rom ((start rom).perform operations) :=
    Reachable.start.perform operations
  generalize (start rom).perform operations = m at reachable
  have rom_eq := reachable.rom_eq
  constructor
  case rom_eq => exact rom_eq
  case cells => exact m.ram.cells.size_toArray
  case outside => exact fun address outside => Memory.get_of_size_le outside
  case counter => exact reachable.pc_lt assembled
  case fetch =>
    intro next step
    rcases pc_of_step step with ⟨inside, further⟩
    exact ⟨rom_eq ▸ inside, Rom.size_le_of_assemble assembled, further⟩
  case store =>
    intro next address step changed
    have stored := get_of_step step changed
    rwa [rom_eq] at stored
  case loop =>
    intro halted
    rcases reachable.haltsAtLoop halted with ⟨place, dest, comp, pc, loop⟩
    rw [rom_eq] at loop
    rw [pc, BitVec.ofNat_toNat, BitVec.setWidth_eq]
    exact ⟨loop.load, dest, comp, loop.branch⟩
  case rest =>
    intro later none
    rcases perform_of_stopped ((step?_eq_none_iff m).1 none) later with ⟨stopped, writes⟩
    exact ⟨(step?_eq_none_iff _).2 stopped, fun limit => run_of_stopped limit stopped, writes⟩

/-- A program that complements cell zero and leaves for the address that it stored there, the last
one of a word. -/
def leavingRom : Rom where
  instrs := #[.load 0, .compute { a := true, m := true } (.notY .a) .never,
    .compute .none .zero .always]

/-- The second step of that program changes cell zero alone, and the third one leads out of the
program, where the machine stops for good. -/
theorem sound_leavingRom :
    Rom.assemble [.value 0, .set { a := true, m := true } (.notY .a), .branch .zero .always] =
      .ok leavingRom ∧
    (∀ next address, ((start leavingRom).perform [.write 0 5, .step]).step? = some next →
      next.get address ≠ ((start leavingRom).perform [.write 0 5, .step]).get address →
      address = 0) ∧
    ((start leavingRom).perform [.write 0 5, .run 3]).pc = 65535 ∧
    ∀ later, (((start leavingRom).perform [.write 0 5, .run 3]).perform later).step? = none ∧
      ((start leavingRom).perform [.write 0 5, .run 3]).perform later =
        ((start leavingRom).perform [.write 0 5, .run 3]).perform
          (later.filter Operation.isWrite) := by
  have assembled : Rom.assemble [.value 0, .set { a := true, m := true } (.notY .a),
    .branch .zero .always] = .ok leavingRom := rfl
  refine ⟨assembled, ?_, rfl, ?_⟩
  · intro next address step changed
    exact ((sound_perform assembled [.write 0 5, .step]).store next address step changed).1
  · intro later
    rcases (sound_perform assembled [.write 0 5, .run 3]).rest later rfl with ⟨none, _, writes⟩
    exact ⟨none, writes⟩

end Hack.Machine
