import Hack.Machine.Basic

/-!
Runs of the machine as sequences of steps.

`Machine.run` counts executed instructions against a limit. `Steps n m m'` says that `n` executed
instructions lead from `m` to `m'`, whatever happens after them, so that a run can be put together
from the runs of its parts. `steps_run` and `run_eq_of_steps` translate between the two.
-/

namespace Hack.Machine

/-- The machine at the start of a program, with the given content of its data memory. -/
def boot (rom : Rom) (memory : Memory) : Machine := { start rom with ram := memory }

/-- So many executed instructions lead from one machine to another. -/
inductive Steps : Nat → Machine → Machine → Prop
  | refl (m : Machine) : Steps 0 m m
  | head {n : Nat} {m next last : Machine} :
    m.step? = some next → Steps n next last → Steps (n + 1) m last

/-! ## Single steps -/

theorem current?_eq_get? {m : Machine} (running : m.halted = false) :
    m.current? = m.rom.get? m.pc := by
  simp [current?, running]

/-- A step executes the instruction at the program counter of a machine that has not halted. -/
theorem step?_eq_some_iff {m next : Machine} :
    m.step? = some next ↔
      m.halted = false ∧ ∃ instr, m.rom.get? m.pc = some instr ∧ next = m.execute instr := by
  cases halted : m.halted with
  | true => simp [step?, current?, halted]
  | false =>
    rw [step?, current?_eq_get? halted, Option.map_eq_some_iff]
    simp only [true_and, eq_comm]

theorem step?_of_get? {m : Machine} {instr : Instr} (running : m.halted = false)
    (fetched : m.rom.get? m.pc = some instr) : m.step? = some (m.execute instr) :=
  step?_eq_some_iff.2 ⟨running, instr, fetched, rfl⟩

@[simp] theorem execute_rom (m : Machine) (instr : Instr) : (m.execute instr).rom = m.rom := by
  cases instr <;> rfl

/-- An instruction leads to the next one, or it is a branch that leads to the address in `A`. -/
theorem execute_pc (m : Machine) (instr : Instr) :
    (m.execute instr).pc = m.pc + 1 ∨
      ∃ dest comp jump, instr = .compute dest comp jump ∧ jump ≠ .never ∧
        (m.execute instr).pc = m.a.toNat := by
  cases instr with
  | load value => exact Or.inl rfl
  | compute dest comp jump =>
    cases taken : jump.test (comp.eval m.d (m.operand comp)) with
    | false => exact Or.inl (by simp [execute, taken])
    | true =>
      refine Or.inr ⟨dest, comp, jump, rfl, ?_, by simp [execute, taken]⟩
      rintro rfl
      cases taken

theorem step?_rom {m next : Machine} (step : m.step? = some next) : next.rom = m.rom := by
  rcases step?_eq_some_iff.1 step with ⟨_, instr, _, rfl⟩
  exact execute_rom m instr

/-! ## Sequences of steps -/

theorem Steps.single {m next : Machine} (step : m.step? = some next) : Steps 1 m next :=
  .head step (.refl next)

theorem Steps.trans {n k : Nat} {m middle last : Machine} (first : Steps n m middle)
    (second : Steps k middle last) : Steps (n + k) m last := by
  induction first with
  | refl => rwa [Nat.zero_add]
  | head step _ ih =>
    rw [Nat.succ_add_eq_add_succ]
    exact .head step (ih second)

theorem Steps.rom_eq {n : Nat} {m last : Machine} (steps : Steps n m last) :
    last.rom = m.rom := by
  induction steps with
  | refl => rfl
  | head step _ ih => rw [ih, step?_rom step]

/-- What every step preserves holds after every sequence of steps. -/
theorem Steps.invariant {P : Machine → Prop}
    (preserved : ∀ {m next : Machine}, P m → m.step? = some next → P next)
    {n : Nat} {m last : Machine} (steps : Steps n m last) (initially : P m) : P last := by
  induction steps with
  | refl => exact initially
  | head step _ ih => exact ih (preserved initially step)

/-! ## Runs -/

/-- A run that may execute more instructions first executes one of them, if there is one. -/
theorem runFrom_succ (count limit : Nat) (m : Machine) :
    runFrom count m (limit + 1) =
      match m.step? with
      | some next => runFrom (count + 1) next limit
      | none => (count, m) := by
  rw [runFrom, step?]
  cases m.current? <;> rfl

/-- The instructions executed before only add to the count. -/
theorem runFrom_eq (count limit : Nat) (m : Machine) :
    runFrom count m limit = (count + (run limit m).1, (run limit m).2) := by
  unfold run
  induction limit generalizing count m with
  | zero => rfl
  | succ limit ih =>
    rw [runFrom_succ, runFrom_succ]
    cases m.step? with
    | none => rfl
    | some next =>
      dsimp only
      rw [ih (count + 1), ih (0 + 1)]
      simp only [Prod.mk.injEq, and_true]
      omega

theorem run_succ_of_step {m next : Machine} (limit : Nat) (step : m.step? = some next) :
    run (limit + 1) m = ((run limit next).1 + 1, (run limit next).2) := by
  unfold run
  rw [runFrom_succ, step]
  dsimp only
  rw [runFrom_eq, Nat.add_comm]
  rfl

theorem run_of_stopped {m : Machine} (limit : Nat) (stopped : m.stopped = true) :
    run limit m = (0, m) := by
  cases limit with
  | zero => rfl
  | succ limit =>
    unfold run
    rw [runFrom_succ, (step?_eq_none_iff m).2 stopped]

/-- A run is a sequence of as many steps as it counts. -/
theorem steps_run (limit : Nat) (m : Machine) : Steps (run limit m).1 m (run limit m).2 := by
  induction limit generalizing m with
  | zero => exact .refl m
  | succ limit ih =>
    cases step : m.step? with
    | none => rw [run_of_stopped _ ((step?_eq_none_iff m).1 step)]; exact .refl m
    | some next => rw [run_succ_of_step limit step]; exact .head step (ih next)

/-- A run ends where the limit is reached or the machine has stopped. -/
theorem run_count_eq_or_stopped (limit : Nat) (m : Machine) :
    (run limit m).1 = limit ∨ (run limit m).2.stopped = true := by
  induction limit generalizing m with
  | zero => exact Or.inl rfl
  | succ limit ih =>
    cases step : m.step? with
    | none =>
      have stopped := (step?_eq_none_iff m).1 step
      rw [run_of_stopped _ stopped]
      exact Or.inr stopped
    | some next =>
      rw [run_succ_of_step limit step]
      exact (ih next).imp (congrArg (· + 1)) id

/-- Steps to a machine that has stopped are the run under every limit that allows so many. -/
theorem run_eq_of_steps {n limit : Nat} {m last : Machine} (steps : Steps n m last)
    (stopped : last.stopped = true) (enough : n ≤ limit) : run limit m = (n, last) := by
  induction steps generalizing limit with
  | refl m => exact run_of_stopped limit stopped
  | head step _ ih =>
    obtain ⟨limit, rfl⟩ : ∃ k, limit = k + 1 := ⟨limit - 1, by omega⟩
    rw [run_succ_of_step limit step, ih stopped (by omega)]

end Hack.Machine
