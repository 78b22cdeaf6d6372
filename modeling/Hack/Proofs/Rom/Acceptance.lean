import Hack.Proofs.Rom.Symbols

/-!
Programs that can be assembled, and the faults of those that cannot.

The labels of a program that can be assembled are pairwise different, its words fit the instruction
memory, and there is a cell for each of its variables. `Program.Fault` lists what goes wrong
otherwise. Where several things go wrong the order of its rules decides, whatever comes first in the
text: each rule asks that the rules before it do not apply.
-/

namespace Hack

open Assembly

namespace Assembly.Program

/-- A program that the assembler accepts. -/
structure Assemblable (program : Program) : Prop where
  distinct : program.labelNames.Nodup
  fits : program.wordCount ≤ MemoryMap.romSize
  few : program.variableNames.length ≤ variableCells

/-- The error for a program that the assembler does not accept. -/
inductive Fault (program : Program) : AssembleError → Prop
  /-- A label was defined before. -/
  | duplicateLabel {name : String} :
    program.FirstRepeated name → Fault program (.duplicateLabel name)
  /-- The program has more words than the instruction memory. -/
  | romOverflow :
    program.labelNames.Nodup → MemoryMap.romSize < program.wordCount → Fault program .romOverflow
  /-- The variable is the first one for which no cell is left. -/
  | variableOverflow {name : String} :
    program.labelNames.Nodup → program.wordCount ≤ MemoryMap.romSize →
    program.variableNames[variableCells]? = some name → Fault program (.variableOverflow name)

variable {program : Program}

/-- A program that the assembler does not accept has a fault. -/
theorem assemblable_or_fault (program : Program) :
    program.Assemblable ∨ ∃ error, program.Fault error := by
  rcases program.nodup_or_firstRepeated with distinct | ⟨name, repeated⟩
  · by_cases fits : program.wordCount ≤ MemoryMap.romSize
    · by_cases few : program.variableNames.length ≤ variableCells
      · exact Or.inl ⟨distinct, fits, few⟩
      · have overflow := List.getElem?_eq_getElem (Nat.lt_of_not_le few)
        exact Or.inr ⟨_, .variableOverflow distinct fits overflow⟩
    · exact Or.inr ⟨_, .romOverflow distinct (Nat.lt_of_not_le fits)⟩
  · exact Or.inr ⟨_, .duplicateLabel repeated⟩

theorem fault_romOverflow_iff :
    program.Fault .romOverflow ↔
      program.labelNames.Nodup ∧ MemoryMap.romSize < program.wordCount := by
  constructor
  · rintro (_ | ⟨distinct, long⟩)
    exact ⟨distinct, long⟩
  · rintro ⟨distinct, long⟩
    exact .romOverflow distinct long

theorem fault_variableOverflow_iff {name : String} :
    program.Fault (.variableOverflow name) ↔
      program.labelNames.Nodup ∧ program.wordCount ≤ MemoryMap.romSize ∧
        program.variableNames[variableCells]? = some name := by
  constructor
  · rintro (_ | _ | ⟨distinct, fits, overflow⟩)
    exact ⟨distinct, fits, overflow⟩
  · rintro ⟨distinct, fits, overflow⟩
    exact .variableOverflow distinct fits overflow

theorem exists_fault_variableOverflow_iff :
    (∃ name, program.Fault (.variableOverflow name)) ↔
      program.labelNames.Nodup ∧ program.wordCount ≤ MemoryMap.romSize ∧
        variableCells < program.variableNames.length := by
  simp only [fault_variableOverflow_iff, exists_and_left]
  refine and_congr_right fun _ => and_congr_right fun _ => ?_
  constructor
  · rintro ⟨name, overflow⟩
    exact (List.getElem?_eq_some_iff.1 overflow).1
  · intro many
    exact ⟨_, List.getElem?_eq_getElem many⟩

theorem length_variableNames_le (program : Program) :
    program.variableNames.length ≤ program.symbolNames.length := by
  have used : ∀ name ∈ program.variableNames, name ∈ program.symbolNames := fun name member =>
    (List.mem_filter.1 (List.mem_eraseDups.1 member)).1
  exact (nodup_eraseDups _).length_le_of_subset used

end Assembly.Program

namespace Rom

open Program

variable {program : Program}

theorem exists_assemble_of_assemblable (assemblable : program.Assemblable) :
    ∃ rom, assemble program = .ok rom := by
  rcases assemblable with ⟨distinct, fits, few⟩
  rcases labels_of_nodup distinct with ⟨labels, collected, keys⟩
  rcases instrsFrom_of_labels keys with ⟨instrs, vars, linked, _, _⟩ | ⟨name, _, overflow⟩
  · refine ⟨{ instrs, labels, vars }, ?_⟩
    simp only [assemble, collected, if_neg (Nat.not_lt_of_le fits), linked]
  · have inside := (List.getElem?_eq_some_iff.1 overflow).1
    omega

theorem assemble_of_fault {error : AssembleError} (fault : program.Fault error) :
    assemble program = .error error := by
  cases fault with
  | duplicateLabel repeated => simp only [assemble, labels_of_firstRepeated repeated]
  | romOverflow distinct long =>
    rcases labels_of_nodup distinct with ⟨labels, collected, _⟩
    simp only [assemble, collected, if_pos long]
  | variableOverflow distinct fits overflow =>
    rcases labels_of_nodup distinct with ⟨labels, collected, keys⟩
    rcases instrsFrom_of_labels keys with ⟨_, _, _, _, few⟩ | ⟨other, failed, overflow'⟩
    · have inside := (List.getElem?_eq_some_iff.1 overflow).1
      omega
    · rw [overflow] at overflow'
      cases overflow'
      simp only [assemble, collected, if_neg (Nat.not_lt_of_le fits), failed]

/-- The assembler accepts the programs that can be assembled, and no others. -/
theorem exists_assemble_iff : (∃ rom, assemble program = .ok rom) ↔ program.Assemblable := by
  refine ⟨fun ⟨rom, accepted⟩ => ?_, exists_assemble_of_assemblable⟩
  rcases program.assemblable_or_fault with assemblable | ⟨error, fault⟩
  · exact assemblable
  · rw [assemble_of_fault fault] at accepted
    cases accepted

/-- The assembler fails with the fault of a program, and with nothing else. -/
theorem assemble_eq_error_iff {error : AssembleError} :
    assemble program = .error error ↔ program.Fault error := by
  refine ⟨fun failed => ?_, assemble_of_fault⟩
  rcases program.assemblable_or_fault with assemblable | ⟨other, fault⟩
  · rcases exists_assemble_of_assemblable assemblable with ⟨rom, accepted⟩
    rw [failed] at accepted
    cases accepted
  · have failed' := assemble_of_fault fault
    rw [failed] at failed'
    cases failed'
    exact fault

/-- A program is assembled if its labels are pairwise different, its words fit, and the symbols that
it loads could all be variables. -/
theorem exists_assemble (distinct : program.labelNames.Nodup)
    (fits : program.wordCount ≤ MemoryMap.romSize)
    (few : MemoryMap.firstVariable + program.symbolNames.length ≤ MemoryMap.stack) :
    ∃ rom, assemble program = .ok rom := by
  have limit : MemoryMap.firstVariable + variableCells = MemoryMap.stack := rfl
  have fewer := program.length_variableNames_le
  exact exists_assemble_of_assemblable ⟨distinct, fits, by omega⟩

end Rom

end Hack
