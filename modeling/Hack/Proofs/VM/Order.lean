import Hack.Proofs.VM.Correctness

/-!
Comparisons and the order of signed numbers.

A comparison looks at the sign of the difference, which wraps. So it tells the order of two numbers
as long as their difference is a word; `BitVec.ssubOverflow` says when it is not, and then the
difference has the wrong sign and the answer is the opposite order (`Operator.verdict`). Equality
is always told rightly.
-/

namespace Hack

open Assembly VM

/-! ## Signs of differences -/

/-- A difference that is no word wraps to one with the wrong sign. -/
theorem sign_of_ssubOverflow {x y : Word} (overflow : x.ssubOverflow y = true) :
    (x.toInt < y.toInt ∧ 0 < (x - y).toInt) ∨ (y.toInt < x.toInt ∧ (x - y).toInt < 0) := by
  have xLower := x.le_toInt
  have xUpper := x.toInt_lt
  have yLower := y.le_toInt
  have yUpper := y.toInt_lt
  simp only [BitVec.ssubOverflow, Bool.or_eq_true, decide_eq_true_eq] at overflow
  rw [BitVec.toInt_sub, Int.bmod_def]
  split <;> omega

theorem toInt_sub_neg_iff (x y : Word) :
    (x - y).toInt < 0 ↔ if x.ssubOverflow y then y.toInt < x.toInt else x.toInt < y.toInt := by
  split
  · next overflow =>
    rcases sign_of_ssubOverflow overflow with ⟨order, sign⟩ | ⟨order, sign⟩ <;> omega
  · next fits =>
    rw [BitVec.toInt_sub_of_not_ssubOverflow fits]
    omega

theorem toInt_sub_pos_iff (x y : Word) :
    0 < (x - y).toInt ↔ if x.ssubOverflow y then x.toInt < y.toInt else y.toInt < x.toInt := by
  split
  · next overflow =>
    rcases sign_of_ssubOverflow overflow with ⟨order, sign⟩ | ⟨order, sign⟩ <;> omega
  · next fits =>
    rw [BitVec.toInt_sub_of_not_ssubOverflow fits]
    omega

theorem toInt_sub_eq_zero_iff (x y : Word) : (x - y).toInt = 0 ↔ x.toInt = y.toInt := by
  rw [← BitVec.toInt_zero, BitVec.toInt_inj, BitVec.sub_eq_iff_eq_add, BitVec.zero_add,
    BitVec.toInt_inj]

namespace VM

/-! ## Verdicts -/

/-- The answer of a comparison: whether two numbers are equal, or their order as long as their
difference is a word, and the opposite order if it is not. -/
def Operator.verdict (op : Operator) (x y : Word) : Bool :=
  match op with
  | .eq => decide (x.toInt = y.toInt)
  | .gt => decide (if x.ssubOverflow y then x.toInt < y.toInt else y.toInt < x.toInt)
  | .lt => decide (if x.ssubOverflow y then y.toInt < x.toInt else x.toInt < y.toInt)
  | _ => false

theorem Operator.action_of_isComparison {op : Operator} (compares : op.isComparison = true) :
    op.action = .binary fun x y => truth (op.verdict x y) := by
  have eq (x y : Word) : decide ((x - y).toInt = 0) = Operator.verdict .eq x y :=
    decide_eq_decide.2 (toInt_sub_eq_zero_iff x y)
  have gt (x y : Word) : decide (0 < (x - y).toInt) = Operator.verdict .gt x y :=
    decide_eq_decide.2 (toInt_sub_pos_iff x y)
  have lt (x y : Word) : decide ((x - y).toInt < 0) = Operator.verdict .lt x y :=
    decide_eq_decide.2 (toInt_sub_neg_iff x y)
  cases op with
  | eq => simp only [Operator.action, eq]
  | gt => simp only [Operator.action, gt]
  | lt => simp only [Operator.action, lt]
  | add | sub | neg | and | or | not => cases compares

/-- The two orders agree on exchanged numbers unless these are half a turn apart: then both
differences are the least number. -/
theorem Operator.verdict_gt_eq_lt_iff (x y : Word) :
    Operator.verdict .gt x y = Operator.verdict .lt y x ↔
      (x.toInt - y.toInt).natAbs ≠ 0x8000 := by
  unfold Operator.verdict
  dsimp only
  rw [decide_eq_decide]
  -- an exchange keeps overflows, except that only one of the differences is half a turn up
  simp only [BitVec.ssubOverflow, Bool.or_eq_true, decide_eq_true_eq]
  split <;> split <;> omega

/-! ## Comparisons in memory -/

section

variable {op : Operator} {memory : Memory}

/-- A comparison of the two values on top of a stack takes one off and puts the answer in the place
of the other. -/
theorem Operator.perform_comparison (compares : op.isComparison = true)
    (low : MemoryMap.stack + 2 ≤ (Stack.pointer memory).toNat)
    (high : (Stack.pointer memory).toNat < MemoryMap.ramSize) :
    Stack.pointer (op.perform memory) = Stack.pointer memory - 1 ∧
      (op.perform memory).get (Stack.pointer memory - 2) =
        truth (op.verdict (memory.get (Stack.pointer memory - 2))
          (memory.get (Stack.pointer memory - 1))) ∧
      ∀ cell, cell ≠ Register.sp.cell → cell ≠ Stack.pointer memory - 2 →
        (op.perform memory).get cell = memory.get cell := by
  have below : Stack.pointer memory - 1 - 1 = Stack.pointer memory - 2 := by
    rw [BitVec.sub_sub]
    rfl
  have depth : 256 + 2 ≤ (Stack.pointer memory).toNat := low
  have apart (n : Word) (small : n.toNat ≤ 2) : Stack.pointer memory - n ≠ Register.sp.cell := by
    intro same
    have equal : Stack.pointer memory = n :=
      (BitVec.sub_eq_iff_eq_add.1 same).trans (BitVec.zero_add n)
    rw [equal] at depth
    omega
  have inside : (Stack.pointer memory - 2).toNat < MemoryMap.ramSize := by
    rw [BitVec.toNat_sub_of_le (BitVec.le_def.2 (Nat.le_trans (by decide) depth))]
    exact Nat.lt_of_le_of_lt (Nat.sub_le _ _) high
  rw [Operator.perform_binary (action_of_isComparison compares), below,
    Stack.get_lower_of_ne memory (apart 2 (by decide)),
    Stack.get_lower_of_ne memory (apart 1 (by decide))]
  refine ⟨?_, ?_, ?_⟩
  · rw [Stack.pointer, Memory.get_set, if_neg fun same => apart 2 (by decide) same.1]
    exact Stack.pointer_lower memory
  · rw [Memory.get_set, if_pos ⟨rfl, inside⟩]
  · intro cell notPointer notAnswer
    rw [Memory.get_set, if_neg fun same => notAnswer same.1.symm]
    exact Stack.get_lower_of_ne memory notPointer

end

/-! ## Comparisons as programs -/

/-- The code of a comparison alone is always assembled. -/
theorem exists_assemble_comparison {unit : SourceUnit} {op : Operator}
    (compares : op.isComparison = true) (clean : unit.compile.hasError = false)
    (single : unit.commands = [.operate op]) :
    ∃ rom, Rom.assemble (linkedProgram [unit]) = .ok rom := by
  have commands := map_command_of_compile clean
  rw [single] at commands
  obtain ⟨block, blocks, command⟩ := List.map_eq_singleton_iff.1 commands
  have member : block ∈ unit.compile.blocks.toList := by
    rw [blocks]
    exact List.mem_singleton_self block
  have compiled := compiles_of_mem_toList block member
  rw [command] at compiled
  obtain ⟨jump, number, shape⟩ := compiled.eq_compare compares
  have program : linkedProgram [unit] = Code.compare jump (LabelPair.ofNumber number) := by
    simp [linkedProgram, Compilation.program, blocks, shape]
  have labels : (Code.compare jump (LabelPair.ofNumber number)).labelNames =
      [(LabelPair.ofNumber number).onTrue, (LabelPair.ofNumber number).finish] := rfl
  rw [program]
  refine Rom.exists_assemble ?_ ?_ ?_
  · rw [labels]
    simp [LabelPair.onTrue_ne_finish]
  · exact (by decide : 15 ≤ MemoryMap.romSize)
  · exact (by decide : MemoryMap.firstVariable + 5 ≤ MemoryMap.stack)

end VM

namespace Machine

/-- The run of a comparison of the two values on top of a stack ends, and leaves the answer in the
place of the lower one. -/
theorem exists_run_of_comparison {unit : SourceUnit} {op : Operator} {rom : Rom}
    (compares : op.isComparison = true) (clean : unit.compile.hasError = false)
    (single : unit.commands = [.operate op])
    (assembled : Rom.assemble (linkedProgram [unit]) = .ok rom) (memory : Memory) {limit : Nat}
    (low : MemoryMap.stack + 2 ≤ (Stack.pointer memory).toNat)
    (high : (Stack.pointer memory).toNat < MemoryMap.ramSize)
    (enough : MemoryMap.romSize ≤ limit) :
    ∃ n last, run limit (boot rom memory) = (n, last) ∧ last.halted = false ∧ last.pc = rom.size ∧
      Stack.pointer last.ram = Stack.pointer memory - 1 ∧
      last.ram.get (Stack.pointer memory - 2) =
        truth (op.verdict (memory.get (Stack.pointer memory - 2))
          (memory.get (Stack.pointer memory - 1))) ∧
      ∀ cell, cell ≠ Register.sp.cell → cell ≠ Stack.pointer memory - 2 →
        last.ram.get cell = memory.get cell := by
  have cleanUnits : ∀ other ∈ [unit], other.compile.hasError = false := by
    intro other member
    rw [List.mem_singleton.1 member]
    exact clean
  obtain ⟨n, last, ran, running, pc, ram⟩ :=
    exists_run_of_assemble cleanUnits assembled memory enough
  have performed : performUnits rom [unit] memory = op.perform memory := by
    simp [performUnits, performAll, single, Command.perform]
  rw [performed] at ram
  refine ⟨n, last, ran, running, pc, ?_⟩
  rw [ram]
  exact Operator.perform_comparison compares low high

/-- **Comparisons tell the order of two numbers whose difference is a word.** The code of a
comparison is always assembled, and from every memory with two values on the stack its run ends with
one value less: all bits one or zero, as `Operator.verdict` says. Nothing else changes. The answer
of `gt` is that of `lt` on the exchanged values unless these are half a turn apart. -/
theorem run_comparison :
    (∀ (unit : SourceUnit) (op : Operator), op.isComparison = true →
      unit.compile.hasError = false → unit.commands = [.operate op] →
      ∃ rom, Rom.assemble (linkedProgram [unit]) = .ok rom ∧
        ∀ (memory : Memory) (limit : Nat),
          MemoryMap.stack + 2 ≤ (Stack.pointer memory).toNat →
          (Stack.pointer memory).toNat < MemoryMap.ramSize → MemoryMap.romSize ≤ limit →
          ∃ n last, run limit (boot rom memory) = (n, last) ∧ last.halted = false ∧
            last.pc = rom.size ∧ Stack.pointer last.ram = Stack.pointer memory - 1 ∧
            last.ram.get (Stack.pointer memory - 2) =
              truth (op.verdict (memory.get (Stack.pointer memory - 2))
                (memory.get (Stack.pointer memory - 1))) ∧
            ∀ cell, cell ≠ Register.sp.cell → cell ≠ Stack.pointer memory - 2 →
              last.ram.get cell = memory.get cell) ∧
    ∀ x y : Word, Operator.verdict .gt x y = Operator.verdict .lt y x ↔
      (x.toInt - y.toInt).natAbs ≠ 0x8000 := by
  refine ⟨?_, Operator.verdict_gt_eq_lt_iff⟩
  intro unit op compares clean single
  obtain ⟨rom, assembled⟩ := exists_assemble_comparison compares clean single
  refine ⟨rom, assembled, ?_⟩
  intro memory limit low high enough
  exact exists_run_of_comparison compares clean single assembled memory low high enough

/-- Memory with two values on an otherwise empty stack. -/
def stacked (x y : Word) : Memory := ((Memory.zero.set 0 258).set 256 x).set 257 y

theorem pointer_stacked (x y : Word) : Stack.pointer (stacked x y) = 258 := by
  simp [Stack.pointer, stacked, Memory.get_set, Register.cell, Register.address, MemoryMap.ramSize]

theorem get_stacked (x y : Word) :
    (stacked x y).get (258 - 2) = x ∧ (stacked x y).get (258 - 1) = y := by
  simp [stacked, Memory.get_set, MemoryMap.ramSize]

/-- A unit with nothing but an operator. -/
def operatorUnit (op : Operator) : SourceUnit := ⟨"Main.vm", "Main", op.text, isSymbol_main⟩

theorem hasError_operatorUnit (op : Operator) : (operatorUnit op).compile.hasError = false := by
  cases op <;> decide +kernel

theorem commands_operatorUnit (op : Operator) : (operatorUnit op).commands = [.operate op] := by
  cases op <;> decide +kernel

/-- Five is greater than three. -/
theorem run_comparison_gt_near :
    ∃ rom, Rom.assemble (linkedProgram [operatorUnit .gt]) = .ok rom ∧
      ∃ n last, run (0xFFFFFFFFFFFFFFFF) (boot rom (stacked 5 3)) = (n, last) ∧ last.pc = rom.size ∧
        last.ram.get 256 = -1 := by
  obtain ⟨rom, assembled, runs⟩ := run_comparison.1 (operatorUnit .gt) .gt rfl
    (hasError_operatorUnit .gt) (commands_operatorUnit .gt)
  have pointer := pointer_stacked 5 3
  obtain ⟨n, last, ran, _, pc, _, answer, _⟩ := runs (stacked 5 3) (0xFFFFFFFFFFFFFFFF)
    (by rw [pointer]; decide) (by rw [pointer]; decide) (by decide)
  rw [pointer, (get_stacked 5 3).1, (get_stacked 5 3).2] at answer
  exact ⟨rom, assembled, n, last, ran, pc, answer.trans (by decide)⟩

theorem exists_run_stacked {op : Operator} (compares : op.isComparison = true) (x y : Word) :
    ∃ rom, Rom.assemble (linkedProgram [operatorUnit op]) = .ok rom ∧
      ∃ n last, run (0xFFFFFFFFFFFFFFFF) (boot rom (stacked x y)) = (n, last) ∧ last.pc = rom.size ∧
        last.ram.get 256 = truth (op.verdict x y) := by
  have clean := hasError_operatorUnit op
  have single := commands_operatorUnit op
  have pointer := pointer_stacked x y
  have limit : MemoryMap.romSize ≤ 0xFFFFFFFFFFFFFFFF := by decide
  obtain ⟨rom, assembled⟩ := exists_assemble_comparison compares clean single
  obtain ⟨n, last, ran, _, pc, _, answer, _⟩ :=
    exists_run_of_comparison compares clean single assembled (stacked x y)
      (by rw [pointer]; decide) (by rw [pointer]; decide) limit
  rw [pointer, (get_stacked x y).1, (get_stacked x y).2] at answer
  exact ⟨rom, assembled, n, last, ran, pc, answer⟩

/-- The greatest number is not told to be greater than minus one, but minus one is told to be less
than it: both differences are the least number. -/
theorem gt_far_values :
    (-1 : Word).toInt < (32767 : Word).toInt ∧ Stack.pointer (stacked 32767 (-1)) = 258 ∧
    (∃ rom, Rom.assemble (linkedProgram [operatorUnit .gt]) = .ok rom ∧
      ∃ n last, run (0xFFFFFFFFFFFFFFFF) (boot rom (stacked 32767 (-1))) = (n, last) ∧
        last.pc = rom.size ∧ last.ram.get 256 = 0) ∧
    ∃ rom, Rom.assemble (linkedProgram [operatorUnit .lt]) = .ok rom ∧
      ∃ n last, run (0xFFFFFFFFFFFFFFFF) (boot rom (stacked (-1) 32767)) = (n, last) ∧
        last.pc = rom.size ∧ last.ram.get 256 = -1 :=
  ⟨by decide, pointer_stacked _ _, exists_run_stacked rfl 32767 (-1),
    exists_run_stacked rfl (-1) 32767⟩

end Machine

end Hack
