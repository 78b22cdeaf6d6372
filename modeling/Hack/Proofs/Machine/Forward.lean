import Hack.Proofs.Machine.Steps

/-!
Programs whose branches all lead forward.

In a program with `Rom.Forward` every branch stands just behind a load, and the loaded address is
further on and not itself behind a load. So no branch is entered from anywhere but its load, `A`
holds the loaded address at every branch (`OnCourse`), and what the memory holds decides at most
whether a branch is taken. The program counter then rises with every step, and every run ends
behind the last instruction.
-/

namespace Hack

/-- Every branch stands behind the load of an address further on, which is not itself the place
behind a load. `aims` may say more of the place of a branch and the address that it leads to. -/
structure Rom.Forward (rom : Rom) (aims : Nat → Word → Prop) : Prop where
  branch {address : Nat} {dest : Dest} {comp : Comp} {jump : Jump} :
    rom.get? address = some (.compute dest comp jump) → jump ≠ .never →
    ∃ before target, address = before + 1 ∧ rom.get? before = some (.load target) ∧
      aims address target ∧ address < target.toNat ∧ target.toNat ≤ rom.size ∧
      ∀ behind value, target.toNat = behind + 1 → rom.get? behind ≠ some (.load value)

namespace Machine

/-- The machine runs, and if it is at a branch then `A` holds the address loaded just before. -/
structure OnCourse (m : Machine) : Prop where
  running : m.halted = false
  pc_le : m.pc ≤ m.rom.size
  loaded {dest : Dest} {comp : Comp} {jump : Jump} :
    m.rom.get? m.pc = some (.compute dest comp jump) → jump ≠ .never →
    ∃ before, m.pc = before + 1 ∧ m.rom.get? before = some (.load m.a)

variable {m next last : Machine} {aims : Nat → Word → Prop}

theorem pc_lt_of_get? {rom : Rom} {address : Nat} {instr : Instr}
    (fetched : rom.get? address = some instr) : address < rom.size :=
  (Array.getElem?_eq_some_iff.1 fetched).1

/-- At a branch, `A` holds the address that the program text gives it. -/
theorem OnCourse.target {dest : Dest} {comp : Comp} {jump : Jump} (course : m.OnCourse)
    (forward : m.rom.Forward aims) (fetched : m.rom.get? m.pc = some (.compute dest comp jump))
    (branches : jump ≠ .never) :
    aims m.pc m.a ∧ m.pc < m.a.toNat ∧ m.a.toNat ≤ m.rom.size ∧
      ∀ behind value, m.a.toNat = behind + 1 → m.rom.get? behind ≠ some (.load value) := by
  obtain ⟨before, target, place, load, aimed, ahead, inside, fresh⟩ :=
    forward.branch fetched branches
  rcases course.loaded fetched branches with ⟨before', place', load'⟩
  obtain rfl : before' = before := by omega
  rw [load] at load'
  cases load'
  exact ⟨aimed, ahead, inside, fresh⟩

/-- No branch stands where the instruction before is no load. -/
theorem no_branch_behind {rom : Rom} {address : Nat} (forward : rom.Forward aims)
    (fresh : ∀ behind value, address = behind + 1 → rom.get? behind ≠ some (.load value))
    {dest : Dest} {comp : Comp} {jump : Jump}
    (fetched : rom.get? address = some (.compute dest comp jump)) : jump = .never := by
  by_cases never : jump = .never
  · exact never
  · rcases forward.branch fetched never with ⟨before, target, place, load, _⟩
    exact absurd load (fresh before target place)

/-- A machine that runs is on course where the instruction before is no load. -/
theorem onCourse_of_fresh (forward : m.rom.Forward aims) (running : m.halted = false)
    (inside : m.pc ≤ m.rom.size)
    (fresh : ∀ behind value, m.pc = behind + 1 → m.rom.get? behind ≠ some (.load value)) :
    m.OnCourse :=
  ⟨running, inside, fun fetched branches =>
    absurd (no_branch_behind forward fresh fetched) branches⟩

/-- The machine stays on course, and its program counter rises. -/
theorem OnCourse.of_step (course : m.OnCourse) (forward : m.rom.Forward aims)
    (step : m.step? = some next) : next.OnCourse ∧ m.pc < next.pc := by
  have forwardThen : next.rom.Forward aims := by rw [step?_rom step]; exact forward
  rcases step?_eq_some_iff.1 step with ⟨_, instr, fetched, rfl⟩
  have inside := pc_lt_of_get? fetched
  cases instr with
  | load value =>
    -- the only step after which a branch may come; `A` then holds what was loaded
    refine ⟨⟨course.running, inside, fun _ _ => ?_⟩, Nat.lt_succ_self _⟩
    exact ⟨m.pc, rfl, fetched⟩
  | compute dest comp jump =>
    cases taken : jump.test (comp.eval m.d (m.operand comp)) with
    | false =>
      have pc : (m.execute (.compute dest comp jump)).pc = m.pc + 1 := by simp [execute, taken]
      have running : (m.execute (.compute dest comp jump)).halted = false := by
        simp [execute, taken, course.running]
      refine ⟨onCourse_of_fresh forwardThen running ?_ ?_, ?_⟩
      · rw [pc, execute_rom]
        exact inside
      · intro behind value place
        rw [pc] at place
        obtain rfl : behind = m.pc := by omega
        rw [execute_rom, fetched]
        rintro ⟨⟩
      · rw [pc]
        exact Nat.lt_succ_self _
    | true =>
      have branches : jump ≠ .never := by
        rintro rfl
        cases taken
      rcases course.target forward fetched branches with ⟨_, ahead, within, fresh⟩
      have pc : (m.execute (.compute dest comp jump)).pc = m.a.toNat := by simp [execute, taken]
      have differ : (m.a.toNat + 1 == m.pc) = false := beq_eq_false_iff_ne.2 (by omega)
      have running : (m.execute (.compute dest comp jump)).halted = false := by
        simp [execute, taken, closesLoop, differ]
      refine ⟨onCourse_of_fresh forwardThen running ?_ ?_, ?_⟩
      · rw [pc, execute_rom]
        exact within
      · rw [pc, execute_rom]
        exact fresh
      · rw [pc]
        exact ahead

/-- Every step raises the program counter, so there are no more steps than instructions. -/
theorem OnCourse.of_steps {n : Nat} (course : m.OnCourse) (forward : m.rom.Forward aims)
    (steps : Steps n m last) : last.OnCourse ∧ m.pc + n ≤ last.pc := by
  induction steps with
  | refl => exact ⟨course, Nat.le_refl _⟩
  | head step _ ih =>
    rcases course.of_step forward step with ⟨later, ahead⟩
    obtain ⟨ended, further⟩ := ih later (by rw [step?_rom step]; exact forward)
    exact ⟨ended, by omega⟩

theorem OnCourse.of_run (course : m.OnCourse) (forward : m.rom.Forward aims) (limit : Nat) :
    (run limit m).2.OnCourse ∧ m.pc + (run limit m).1 ≤ (run limit m).2.pc :=
  course.of_steps forward (steps_run limit m)

/-- A run takes no more steps than there are instructions. -/
theorem OnCourse.run_count_le (course : m.OnCourse) (forward : m.rom.Forward aims) (limit : Nat) :
    (run limit m).1 ≤ m.rom.size := by
  rcases course.of_run forward limit with ⟨ended, further⟩
  have inside := ended.pc_le
  rw [(steps_run limit m).rom_eq] at inside
  omega

/-- A run that may take as many steps as there are instructions ends behind the last of them. -/
theorem OnCourse.run_pc_eq (course : m.OnCourse) (forward : m.rom.Forward aims) {limit : Nat}
    (enough : m.rom.size ≤ limit) : (run limit m).2.pc = m.rom.size := by
  rcases course.of_run forward limit with ⟨ended, further⟩
  have inside := ended.pc_le
  have rom := (steps_run limit m).rom_eq
  rw [rom] at inside
  rcases run_count_eq_or_stopped limit m with used | stopped
  · omega
  · unfold Machine.stopped at stopped
    rw [ended.running, Bool.false_or, decide_eq_true_eq, rom] at stopped
    exact Nat.le_antisymm inside stopped

theorem onCourse_boot {rom : Rom} (forward : rom.Forward aims) (memory : Memory) :
    (boot rom memory).OnCourse := by
  refine ⟨rfl, Nat.zero_le _, fun {dest comp jump} fetched branches => ?_⟩
  rcases forward.branch fetched branches with ⟨before, _, place, _⟩
  cases place

end Machine

end Hack
