import Hack.Proofs.Machine.Steps
import Hack.Proofs.Rom.Linking

/-!
What the halted machine would go on to do.

The machine halts when it branches always to a load of that load's own address, just before the
branch. From then on it would execute these two instructions in turn for ever. The flag does not
depend on what the branching instruction computes and where it stores the result, so going on is
without effect only if that result is there already: this is the case for every loop that stores
nothing, and `Machine.IdleAt` says when it is the case for another one.
-/

namespace Hack

/-- The loop of two instructions that ends a program: the load of its own address, and a computation
that branches back to it always. -/
structure LoopAt (rom : Rom) (place : Word) (dest : Dest) (comp : Comp) : Prop where
  load : rom.get? place.toNat = some (.load place)
  branch : rom.get? (place.toNat + 1) = some (.compute dest comp .always)

namespace Machine

/-- The machines that can be reached from the start of a program by writes from outside, single
steps and runs. -/
inductive Reachable (rom : Rom) : Machine → Prop
  | start : Reachable rom (start rom)
  | set {m : Machine} (address value : Word) : Reachable rom m → Reachable rom (m.set address value)
  | step {m next : Machine} : Reachable rom m → m.step? = some next → Reachable rom next
  | run {m : Machine} (limit : Nat) : Reachable rom m → Reachable rom (run limit m).2

/-! ## Halted machines stand at a loop -/

/-- If the machine has halted then it stands at a loop. -/
def HaltsAtLoop (m : Machine) : Prop :=
  m.halted = true → ∃ place dest comp, m.pc = place.toNat ∧ LoopAt m.rom place dest comp

variable {m next last : Machine}

/-- Whatever a step does, if it sets the flag then it has just closed a loop. -/
theorem HaltsAtLoop.of_step (step : m.step? = some next) : next.HaltsAtLoop := by
  intro halted
  rcases step?_eq_some_iff.1 step with ⟨running, instr, fetched, rfl⟩
  cases instr with
  | load value =>
    rw [show (m.execute (.load value)).halted = m.halted from rfl, running] at halted
    cases halted
  | compute dest comp jump =>
    cases taken : jump.test (comp.eval m.d (m.operand comp)) with
    | false =>
      simp only [execute, taken, Bool.false_eq_true, if_false] at halted
      rw [running] at halted
      cases halted
    | true =>
      simp only [execute, taken, if_true, closesLoop, Bool.and_eq_true, beq_iff_eq] at halted
      -- `A` leads to the word before, so the branch of the loop is the one just executed
      rcases halted with ⟨⟨always, behind⟩, load⟩
      refine ⟨m.a, dest, comp, by simp [execute, taken], ?_⟩
      rw [execute_rom]
      rw [always, ← behind] at fetched
      exact ⟨load, fetched⟩

theorem HaltsAtLoop.of_steps {n : Nat} (steps : Steps n m last) (loop : m.HaltsAtLoop) :
    last.HaltsAtLoop :=
  steps.invariant (fun _ step => .of_step step) loop

theorem Reachable.haltsAtLoop {rom : Rom} (reachable : Reachable rom m) : m.HaltsAtLoop := by
  induction reachable with
  | start => exact fun halted => nomatch halted
  | set address value _ ih => exact ih
  | step _ step _ => exact .of_step step
  | run limit _ ih => exact .of_steps (steps_run limit _) ih

theorem Reachable.rom_eq {rom : Rom} (reachable : Reachable rom m) : m.rom = rom := by
  induction reachable with
  | start => rfl
  | set address value _ ih => exact ih
  | step _ step ih => rw [step?_rom step, ih]
  | run limit _ ih => rw [(steps_run limit _).rom_eq, ih]

/-! ## Going on -/

/-- The machine after so many more instructions, as if it had not halted. -/
def advances : Nat → Machine → Machine
  | 0, m => m
  | n + 1, m => advances n m.advance

/-- What the computation in a loop gives when `A` holds the place of the loop. -/
def loopResult (m : Machine) (place : Word) (comp : Comp) : Word :=
  comp.eval m.d (if comp.readsMemory then m.ram.get place else place)

/-- The computation in a loop stores nothing in `D` or in memory that is not there already. -/
structure IdleAt (m : Machine) (place : Word) (dest : Dest) (comp : Comp) : Prop where
  d : dest.d = true → m.loopResult place comp = m.d
  ram : dest.m = true → m.loopResult place comp = m.ram.get place

/-- The machine is at the load of a loop, or at the branch with `A` loaded. -/
def InLoop (m : Machine) (place : Word) : Prop :=
  m.pc = place.toNat ∨ m.pc = place.toNat + 1 ∧ m.a = place

theorem advance_rom (m : Machine) : m.advance.rom = m.rom := by
  unfold advance
  split
  · exact execute_rom m _
  · rfl

section Loop

variable {place : Word} {dest : Dest} {comp : Comp}

theorem advance_load (loop : LoopAt m.rom place dest comp) (start : m.pc = place.toNat) :
    m.advance = { m with a := place, pc := place.toNat + 1 } := by
  unfold advance
  rw [start, loop.load]
  simp only [execute, start]

theorem advance_branch (loop : LoopAt m.rom place dest comp) (finish : m.pc = place.toNat + 1)
    (loaded : m.a = place) :
    m.advance =
      { m with
        ram := if dest.m then m.ram.set place (m.loopResult place comp) else m.ram
        a := if dest.a then m.loopResult place comp else place
        d := if dest.d then m.loopResult place comp else m.d
        pc := place.toNat
        halted := true } := by
  have closes : closesLoop m.rom (place.toNat + 1) .always place = true := by
    simp [closesLoop, loop.load]
  unfold advance
  rw [finish, loop.branch]
  simp only [execute, loaded, finish, closes, Jump.test, if_true, operand, loopResult]

/-- The machine stays in the loop. -/
theorem InLoop.after_advance (inside : m.InLoop place) (loop : LoopAt m.rom place dest comp) :
    m.advance.InLoop place := by
  rcases inside with start | ⟨finish, loaded⟩
  · rw [advance_load loop start]
    exact Or.inr ⟨rfl, rfl⟩
  · rw [advance_branch loop finish loaded]
    exact Or.inl rfl

theorem InLoop.after_advances (inside : m.InLoop place) (loop : LoopAt m.rom place dest comp)
    (n : Nat) :
    (advances n m).InLoop place := by
  induction n generalizing m with
  | zero => exact inside
  | succ n ih => exact ih (inside.after_advance loop) (by rw [advance_rom]; exact loop)

/-- An idle loop changes neither `D` nor memory. -/
theorem IdleAt.after_advance (idle : m.IdleAt place dest comp) (inside : m.InLoop place)
    (loop : LoopAt m.rom place dest comp) : m.advance.d = m.d ∧ m.advance.ram = m.ram := by
  rcases inside with start | ⟨finish, loaded⟩
  · rw [advance_load loop start]
    exact ⟨rfl, rfl⟩
  · rw [advance_branch loop finish loaded]
    constructor
    · dsimp only
      split
      · next stored => exact idle.d stored
      · rfl
    · dsimp only
      split
      · next stored => rw [idle.ram stored, Memory.set_get]
      · rfl

theorem IdleAt.after_advances (idle : m.IdleAt place dest comp) (inside : m.InLoop place)
    (loop : LoopAt m.rom place dest comp) (n : Nat) :
    (advances n m).d = m.d ∧ (advances n m).ram = m.ram := by
  induction n generalizing m with
  | zero => exact ⟨rfl, rfl⟩
  | succ n ih =>
    rcases idle.after_advance inside loop with ⟨d, ram⟩
    have idleThen : m.advance.IdleAt place dest comp := by
      have result : m.advance.loopResult place comp = m.loopResult place comp := by
        unfold loopResult
        rw [d, ram]
      constructor
      · rw [result, d]
        exact idle.d
      · rw [result, ram]
        exact idle.ram
    have loopThen : LoopAt m.advance.rom place dest comp := by
      rw [advance_rom]
      exact loop
    rw [← d, ← ram]
    exact ih idleThen (inside.after_advance loop) loopThen

/-- A loop that changes neither `D` nor memory in its first round is idle. -/
theorem idleAt_of_advances (loop : LoopAt m.rom place dest comp) (start : m.pc = place.toNat)
    (cell : place.toNat < MemoryMap.ramSize) (d : (advances 2 m).d = m.d)
    (ram : (advances 2 m).ram = m.ram) : m.IdleAt place dest comp := by
  -- one round, from the load to the load
  have round : advances 2 m = m.advance.advance := rfl
  have branched := advance_branch (m := { m with a := place, pc := place.toNat + 1 }) loop rfl rfl
  rw [round, advance_load loop start, branched] at d ram
  constructor
  · intro stored
    rw [if_pos stored] at d
    exact d
  · intro stored
    rw [if_pos stored] at ram
    have content := congrArg (Memory.get · place) ram
    dsimp only at content
    rwa [Memory.get_set, if_pos ⟨rfl, cell⟩] at content

end Loop

/-- **Halting loses nothing exactly if the loop is idle.** A machine that was reached in any way and
has stopped inside the program stands at a loop. Going on as if it had not halted it would never
leave the loop, and it would leave `D` and the memory as they are for ever if and only if the
computation in the loop stores nothing there that is not there already. -/
theorem continue_stopped {program : Assembly.Program} {rom : Rom}
    (assembled : Rom.assemble program = .ok rom) (reachable : Reachable rom m)
    (stopped : m.stopped = true) (inside : m.pc < rom.size) :
    ∃ place dest comp, m.pc = place.toNat ∧ LoopAt rom place dest comp ∧
      (∀ n, (advances n m).pc = m.pc ∨ (advances n m).pc = m.pc + 1) ∧
      ((∀ n, (advances n m).d = m.d ∧ (advances n m).ram = m.ram) ↔
        m.IdleAt place dest comp) := by
  have rom_eq := reachable.rom_eq
  have halted : m.halted = true := by
    unfold Machine.stopped at stopped
    rw [rom_eq, decide_eq_false (Nat.not_le_of_lt inside), Bool.or_false] at stopped
    exact stopped
  rcases reachable.haltsAtLoop halted with ⟨place, dest, comp, start, loop⟩
  have inLoop : m.InLoop place := Or.inl start
  have cell : place.toNat < MemoryMap.ramSize := by
    rw [← start]
    exact Nat.lt_of_lt_of_le inside (Rom.size_le_of_assemble assembled)
  refine ⟨place, dest, comp, start, rom_eq ▸ loop, ?_, ?_, ?_⟩
  · intro n
    rw [start]
    exact (inLoop.after_advances loop n).imp_right And.left
  · intro unchanged
    exact idleAt_of_advances loop start cell (unchanged 2).1 (unchanged 2).2
  · intro idle n
    exact idle.after_advances inLoop loop n

/-- A program that leaves seven in `D` and ends with a loop that stores nothing. -/
def endingRom : Rom :=
  { instrs := #[.load 7, .compute { d := true } (.y .a) .never,
      .load 2, .compute .none .zero .always] }

theorem continue_stopped_endingRom :
    Rom.assemble [.value 7, .set { d := true } (.y .a), .value 2, .branch .zero .always] =
      .ok endingRom ∧
    ∃ m, Reachable endingRom m ∧ m.stopped = true ∧ m.pc < endingRom.size ∧
      ∀ n, (advances n m).d = 7 ∧ (advances n m).ram = m.ram := by
  have assembled : Rom.assemble [.value 7, .set { d := true } (.y .a), .value 2,
    .branch .zero .always] = .ok endingRom := rfl
  have reachable : Reachable endingRom (run 100 (start endingRom)).2 := .run 100 .start
  have inside : (run 100 (start endingRom)).2.pc < endingRom.size := by decide
  obtain ⟨place, dest, comp, pc, loop, _, unchanged⟩ :=
    continue_stopped assembled reachable rfl inside
  have branch := loop.branch
  rw [← pc] at branch
  obtain ⟨rfl, rfl⟩ : dest = .none ∧ comp = .zero := by
    cases branch
    exact ⟨rfl, rfl⟩
  have idle : (run 100 (start endingRom)).2.IdleAt place .none .zero := ⟨nofun, nofun⟩
  exact ⟨assembled, _, reachable, rfl, inside, unchanged.2 idle⟩

/-- A loop that counts its rounds in `D`. -/
def countingRom : Rom :=
  { instrs := #[.load 0, .compute { d := true } .dPlusOne .always] }

/-- The machine halts after one round of the counting loop, and would count on. -/
theorem stopped_countingRom :
    Rom.assemble [.value 0, .compute { d := true } .dPlusOne .always] = .ok countingRom ∧
    ∃ m, Reachable countingRom m ∧ m.stopped = true ∧ m.pc < countingRom.size ∧ m.d = 1 ∧
      (advances 2 m).d = 2 :=
  ⟨rfl, (run 100 (start countingRom)).2, .run 100 .start, rfl, by decide, rfl, rfl⟩

end Machine

end Hack
