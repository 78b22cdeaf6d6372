import Hack.Machine.Hardware
import Hack.Proofs.Machine.Steps
import Hack.Proofs.Rom.Words

/-!
The words of a program drive hardware through the runs of the machine.

`Machine.execute` follows the fields of an instruction, `Machine.executeWord` single bits of its
word. The six control bits of a computation make the arithmetic unit compute it (`output_ofCode`),
its branch bits select the results that branch (`selects_of_extract`), so a word leaves what its
instruction leaves (`executeWord_encode`), as long as a loaded value fits in a word. Programs that
leave room in the instruction memory load no other values, and their words follow every run
(`hardware_follows_run`). Hardware has no halt flag: its machines are those whose flag is not set
(`Machine.bare`).
-/

namespace Hack

/-! ## The arithmetic unit -/

namespace Control

/-- The control bits in the six bits that select an operation. -/
def ofCode (code : BitVec 6) : Control :=
  { zeroX := code.getLsbD 5
    notX := code.getLsbD 4
    zeroY := code.getLsbD 3
    notY := code.getLsbD 2
    adds := code.getLsbD 1
    notOut := code.getLsbD 0 }

theorem ofWord_eq_ofCode (w : Word) : ofWord w = ofCode (w.extractLsb' 6 6) := by
  simp [ofWord, ofCode]

/-- Switched by the control bits of a computation, the arithmetic unit computes it. -/
theorem output_ofCode (comp : Comp) (x y : Word) :
    (ofCode comp.code).output x y = comp.eval x y := by
  cases comp <;> simp [ofCode, Comp.code, output, input, Comp.eval]
  -- one input is switched to all ones, which leave the other one to the logical operation
  case d | notD => exact BitVec.and_allOnes
  case y | notY => exact BitVec.allOnes_and
  case dOrY => rw [BitVec.not_and, BitVec.not_not, BitVec.not_not]
  -- a complement is the negative less one, and all ones are minus one
  case negD | negY | dPlusOne | yPlusOne | dMinusY | yMinusD =>
    simp only [BitVec.not_eq_neg_add]
    grind
  case dMinusOne | yMinusOne => grind

end Control

/-! ## The branch and the places of the result -/

theorem Word.getLsbD_of_extract {w : Word} {start size : Nat} {field : BitVec size}
    (bits : w.extractLsb' start size = field) {i : Nat} (inside : i < size) :
    w.getLsbD (start + i) = field.getLsbD i := by
  rw [← bits, BitVec.getLsbD_extractLsb', decide_eq_true inside, Bool.true_and]

/-- The branch bits of a condition select the results for which it holds. -/
theorem Word.selects_of_extract {w : Word} {jump : Jump} (bits : w.extractLsb' 0 3 = jump.code)
    (out : Word) : w.selects out = jump.test out := by
  have negative : w.getLsbD 2 = jump.code.getLsbD 2 :=
    getLsbD_of_extract (i := 2) bits (by decide)
  have zero : w.getLsbD 1 = jump.code.getLsbD 1 :=
    getLsbD_of_extract (i := 1) bits (by decide)
  have positive : w.getLsbD 0 = jump.code.getLsbD 0 :=
    getLsbD_of_extract (i := 0) bits (by decide)
  rw [selects, negative, zero, positive]
  cases jump <;> simp [Jump.code, Jump.test] <;> grind

/-- The bits of the destinations open the places that take the result. -/
theorem Word.getLsbD_of_extract_dest {w : Word} {dest : Dest}
    (bits : w.extractLsb' 3 3 = dest.code) :
    w.getLsbD 5 = dest.a ∧ w.getLsbD 4 = dest.d ∧ w.getLsbD 3 = dest.m := by
  have read := Instr.decodeDest_code dest
  refine ⟨?_, ?_, ?_⟩
  · exact (getLsbD_of_extract (i := 2) bits (by decide)).trans (congrArg Dest.a read)
  · exact (getLsbD_of_extract (i := 1) bits (by decide)).trans (congrArg Dest.d read)
  · exact (getLsbD_of_extract (i := 0) bits (by decide)).trans (congrArg Dest.m read)

namespace Machine

/-! ## Steps -/

/-- The machine without its halt flag, which hardware does not have. -/
def bare (m : Machine) : Machine := { m with halted := false }

/-- The machine after the word at its program counter; off the end of the program it stays as it
is. -/
def advanceWord (m : Machine) : Machine :=
  match m.rom.get? m.pc with
  | some instr => m.executeWord instr.encode
  | none => m

/-- The machine after so many words. -/
def advanceWords : Nat → Machine → Machine
  | 0, m => m
  | n + 1, m => advanceWords n m.advanceWord

theorem bare_of_running {m : Machine} (running : m.halted = false) : m.bare = m := by
  unfold bare
  rw [← running]

/-- A word leaves what its instruction leaves. -/
theorem executeWord_encode (m : Machine) {instr : Instr} (fits : instr.Fits) :
    m.bare.executeWord instr.encode = (m.execute instr).bare := by
  cases instr with
  | load value =>
    have value_eq : Instr.encode (.load value) = value := Instr.encode_load fits
    have top : value.getLsbD 15 = false := by
      rw [← value_eq]
      exact Instr.getLsbD_top_load value
    simp only [executeWord, execute, bare, value_eq, top, Bool.false_eq_true, if_false]
  | compute dest comp jump =>
    rcases Word.getLsbD_of_extract_dest (Instr.extract_dest dest comp jump) with ⟨a, d, ram⟩
    have out (x y : Word) :
        (Control.ofWord (Instr.encode (.compute dest comp jump))).output x y = comp.eval x y := by
      rw [Control.ofWord_eq_ofCode, Instr.extract_comp, Control.output_ofCode]
    have operand : (if comp.readsMemory then m.bare.get m.bare.a else m.bare.a) = m.operand comp :=
      rfl
    simp only [executeWord, Instr.getLsbD_top_compute, if_true, Instr.getLsbD_source, operand, a, d,
      ram, Word.selects_of_extract (Instr.extract_jump dest comp jump)]
    simp only [bare, out, execute]

/-- While the machine has not stopped, the word at its program counter makes its step. -/
theorem advanceWord_of_step {m next : Machine}
    (fits : ∀ {address : Nat} {instr : Instr}, m.rom.get? address = some instr → instr.Fits)
    (step : m.step? = some next) : m.bare.advanceWord = next.bare := by
  rcases step?_eq_some_iff.1 step with ⟨_, instr, fetched, rfl⟩
  have fetched_bare : m.bare.rom.get? m.bare.pc = some instr := fetched
  rw [advanceWord, fetched_bare]
  exact executeWord_encode m (fits fetched)

theorem advanceWords_of_steps {n : Nat} {m last : Machine}
    (fits : ∀ {address : Nat} {instr : Instr}, m.rom.get? address = some instr → instr.Fits)
    (steps : Steps n m last) : advanceWords n m.bare = last.bare := by
  induction steps with
  | refl => rfl
  | head step _ ih =>
    rw [advanceWords, advanceWord_of_step fits step]
    apply ih
    rw [step?_rom step]
    exact fits

/-! ## Runs -/

/-- **Words drive hardware through the run of the machine.** For a program read from a text that
leaves room in the instruction memory, and any content of the data memory, hardware that has read as
many words as a run counts stands where the run ended; and unless the machine has stopped there, the
word at its program counter leaves what its next step leaves. -/
theorem hardware_follows_run {path text : String} {rom : Rom}
    (accepted : Rom.ofText path text = .ok rom) (room : rom.size ≤ Word.maxLiteral)
    (memory : Memory) (limit : Nat) :
    let count := (run limit (boot rom memory)).1
    let last := (run limit (boot rom memory)).2
    advanceWords count (boot rom memory) = last.bare ∧
      (last.stopped = false →
        ∃ instr next, last.rom.get? last.pc = some instr ∧ last.step? = some next ∧
          last.executeWord instr.encode = next.bare) := by
  intro count last
  have steps : Steps count (boot rom memory) last := steps_run limit (boot rom memory)
  have same : last.rom = rom := steps.rom_eq
  have fits {address : Nat} {instr : Instr} (fetched : rom.get? address = some instr) :
      instr.Fits := Rom.fits_of_ofText accepted room fetched
  refine ⟨advanceWords_of_steps fits steps, fun running => ?_⟩
  cases step : last.step? with
  | none =>
    rw [(step?_eq_none_iff last).1 step] at running
    cases running
  | some next =>
    rcases step?_eq_some_iff.1 step with ⟨flag, instr, fetched, rfl⟩
    have word := executeWord_encode last (fits (same ▸ fetched))
    rw [bare_of_running flag] at word
    exact ⟨instr, _, fetched, rfl, word⟩

/-- A loop that counts `D` down from five and uses the old content of `A` in its last word. -/
def countdownRom : Rom where
  instrs := #[.load 5, .compute { d := true } (.y .a) .never, .load 2,
    .compute { a := true, d := true } .dMinusOne .gt]

theorem run_countdownRom :
    (run 11 (boot countdownRom .zero)).1 = 11 ∧
      (run 11 (boot countdownRom .zero)).2.stopped = false := ⟨rfl, rfl⟩

/-- Eleven words lead to the last one of this loop, which then makes the last step. -/
theorem hardware_follows_countdownRom :
    Rom.ofText "countdown.asm" "@5\nD=A\n@2\nAD=D-1;JGT\n" = .ok countdownRom ∧
      countdownRom.size ≤ Word.maxLiteral ∧
      advanceWords 11 (boot countdownRom .zero) = (run 11 (boot countdownRom .zero)).2.bare ∧
      ∃ (instr : Instr) (next : Machine), (run 11 (boot countdownRom .zero)).2.step? = some next ∧
        (run 11 (boot countdownRom .zero)).2.executeWord instr.encode = next.bare := by
  have accepted : Rom.ofText "countdown.asm" "@5\nD=A\n@2\nAD=D-1;JGT\n" = .ok countdownRom := rfl
  have room : countdownRom.size ≤ Word.maxLiteral := by decide
  rcases run_countdownRom with ⟨count, running⟩
  rcases hardware_follows_run accepted room .zero 11 with ⟨words, further⟩
  rw [count] at words
  rcases further running with ⟨instr, next, _, step, word⟩
  exact ⟨accepted, room, words, instr, next, step, word⟩

end Machine

end Hack
