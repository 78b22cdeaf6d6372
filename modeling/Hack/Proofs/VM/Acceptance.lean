import Hack.Proofs.VM.Sessions
import Hack.Proofs.VM.Statics

/-!
When compiled units link.

Every unit numbers its comparisons from one, so two units with comparisons both define the first
label, and a single unit never defines a label twice (`nodup_labelNames_linkedProgram_iff`). With
the words of the commands and the static variables in use this decides whether linked units are
assembled, and the fault if they are not (`link_exactly`).
-/

namespace Hack.VM

open Assembly

/-- Whether a unit has a comparison. -/
def SourceUnit.compares (unit : SourceUnit) : Bool := unit.commands.any Command.isComparison

/-! ## Labels -/

theorem labelNames_linkedProgram_cons (unit : SourceUnit) (units : List SourceUnit) :
    (linkedProgram (unit :: units)).labelNames =
      unit.compile.program.labelNames ++ (linkedProgram units).labelNames := by
  rw [linkedProgram_cons, Program.labelNames_append]

theorem labelNames_of_not_compares {unit : SourceUnit} (plain : unit.compares = false) :
    unit.compile.program.labelNames = [] := by
  have none : unit.commands.countP Command.isComparison = 0 := by
    rw [List.countP_eq_zero]
    exact List.any_eq_false.1 plain
  rw [labelNames_compile, none]
  rfl

theorem labelNames_of_compares {unit : SourceUnit} (compares : unit.compares = true) :
    ∃ rest, unit.compile.program.labelNames = "TRUE$1" :: rest := by
  have some : 0 < unit.commands.countP Command.isComparison := by
    rw [List.countP_pos_iff]
    exact List.any_eq_true.1 compares
  obtain ⟨count, succ⟩ := Nat.exists_eq_add_one_of_ne_zero (Nat.ne_of_gt some)
  rw [labelNames_compile, succ, comparisonLabels, List.range'_succ, List.flatMap_cons]
  exact ⟨_, rfl⟩

theorem nodup_labelNames_compile (unit : SourceUnit) :
    unit.compile.program.labelNames.Nodup := by
  rw [labelNames_compile]
  exact nodup_comparisonLabels _

theorem labelNames_linkedProgram_of_pos {units : List SourceUnit}
    (some : 0 < units.countP SourceUnit.compares) :
    ∃ rest, (linkedProgram units).labelNames = "TRUE$1" :: rest := by
  induction units with
  | nil => cases some
  | cons unit units ih =>
    rw [labelNames_linkedProgram_cons]
    cases compares : unit.compares with
    | true =>
      obtain ⟨rest, labels⟩ := labelNames_of_compares compares
      rw [labels]
      exact ⟨_, rfl⟩
    | false =>
      rw [List.countP_cons_of_neg (Bool.eq_false_iff.1 compares)] at some
      rw [labelNames_of_not_compares compares]
      exact ih some

/-- The second unit with comparisons repeats the first label of the first one. -/
theorem labelNames_linkedProgram_of_two {units : List SourceUnit}
    (two : 2 ≤ units.countP SourceUnit.compares) :
    ∃ front back, (linkedProgram units).labelNames = front ++ "TRUE$1" :: back ∧ front.Nodup ∧
      "TRUE$1" ∈ front := by
  induction units with
  | nil => cases two
  | cons unit units ih =>
    rw [labelNames_linkedProgram_cons]
    cases compares : unit.compares with
    | true =>
      rw [List.countP_cons_of_pos compares] at two
      obtain ⟨rest, labels⟩ := labelNames_of_compares compares
      obtain ⟨back, later⟩ := labelNames_linkedProgram_of_pos (Nat.le_of_succ_le_succ two)
      refine ⟨_, back, by rw [later], nodup_labelNames_compile unit, ?_⟩
      rw [labels]
      exact List.mem_cons_self
    | false =>
      rw [List.countP_cons_of_neg (Bool.eq_false_iff.1 compares)] at two
      rw [labelNames_of_not_compares compares]
      exact ih two

theorem firstRepeated_of_two {units : List SourceUnit}
    (two : 2 ≤ units.countP SourceUnit.compares) :
    (linkedProgram units).FirstRepeated "TRUE$1" := by
  obtain ⟨front, back, labels, once, known⟩ := labelNames_linkedProgram_of_two two
  exact Program.firstRepeated_of_labelNames labels once known

theorem labelNames_linkedProgram_of_none {units : List SourceUnit}
    (none : units.countP SourceUnit.compares = 0) : (linkedProgram units).labelNames = [] := by
  refine List.eq_nil_iff_forall_not_mem.2 fun name member => ?_
  obtain ⟨unit, linked, inUnit⟩ := List.mem_flatMap.1 (Program.mem_labelNames.1 member)
  have plain : unit.compares = false :=
    Bool.eq_false_iff.2 (List.countP_eq_zero.1 none unit linked)
  have label := Program.mem_labelNames.2 inUnit
  rw [labelNames_of_not_compares plain] at label
  cases label

theorem nodup_of_lt_two {units : List SourceUnit}
    (few : units.countP SourceUnit.compares < 2) : (linkedProgram units).labelNames.Nodup := by
  induction units with
  | nil => exact List.nodup_nil
  | cons unit units ih =>
    rw [labelNames_linkedProgram_cons]
    cases compares : unit.compares with
    | true =>
      rw [List.countP_cons_of_pos compares] at few
      have none : units.countP SourceUnit.compares = 0 := by omega
      rw [labelNames_linkedProgram_of_none none, List.append_nil]
      exact nodup_labelNames_compile unit
    | false =>
      rw [List.countP_cons_of_neg (Bool.eq_false_iff.1 compares)] at few
      rw [labelNames_of_not_compares compares]
      exact ih few

theorem nodup_labelNames_linkedProgram_iff {units : List SourceUnit} :
    (linkedProgram units).labelNames.Nodup ↔ units.countP SourceUnit.compares < 2 := by
  refine ⟨fun distinct => ?_, nodup_of_lt_two⟩
  exact Nat.lt_of_not_le fun two => (firstRepeated_of_two two).not_nodup distinct

/-- Only the first label can be defined twice. -/
theorem fault_duplicateLabel_iff {units : List SourceUnit} :
    (linkedProgram units).Fault (.duplicateLabel "TRUE$1") ↔
      2 ≤ units.countP SourceUnit.compares := by
  constructor
  · rintro (repeated | _)
    have twice := mt nodup_labelNames_linkedProgram_iff.2 repeated.not_nodup
    omega
  · intro two
    exact .duplicateLabel (firstRepeated_of_two two)

/-! ## One unit -/

theorem linkedProgram_singleton (unit : SourceUnit) :
    linkedProgram [unit] = unit.compile.program := List.flatMap_singleton _ unit

/-- The variables of an assembled unit are its static variables, also if some of its lines were
left out because of errors. -/
theorem keys_vars_of_assemble {unit : SourceUnit} {rom : Rom}
    (assembled : Rom.assemble unit.compile.program = .ok rom) :
    rom.vars.keys.toList = (staticUses [unit]).eraseDups.map useSymbol := by
  rw [(Rom.variables_of_assemble assembled).1.keys, ← linkedProgram_singleton,
    variableNames_linkedProgram]

theorem exists_use_of_variableOverflow {unit : SourceUnit} {name : String}
    (failed : Rom.assemble unit.compile.program = .error (.variableOverflow name)) :
    ∃ use ∈ staticUses [unit], name = useSymbol use := by
  have fault := Rom.assemble_eq_error_iff.1 failed
  obtain ⟨_, _, overflow⟩ := Program.fault_variableOverflow_iff.1 fault
  rw [← linkedProgram_singleton, variableNames_linkedProgram] at overflow
  obtain ⟨use, member, rfl⟩ := List.mem_map.1 (List.mem_of_getElem? overflow)
  exact ⟨use, List.mem_eraseDups.1 member, rfl⟩

theorem not_duplicateLabel_compile (unit : SourceUnit) (name : String) :
    Rom.assemble unit.compile.program ≠ .error (.duplicateLabel name) := by
  intro failed
  rcases Rom.assemble_eq_error_iff.1 failed with repeated | _
  exact repeated.not_nodup (nodup_labelNames_compile unit)

/-! ## Linked units -/

/-- **When compiled units link.** Units that are compiled without errors are assembled together
unless two of them have comparisons, their commands have too many words, or they use too many
static variables; the first of these reasons is the error. One unit alone never defines a label
twice, and it has no variables besides its static variables, even if some of its lines have
errors. -/
theorem link_exactly {units : List SourceUnit}
    (clean : ∀ unit ∈ units, unit.compile.hasError = false) :
    (Rom.assemble (linkedProgram units) = .error (.duplicateLabel "TRUE$1") ↔
      2 ≤ units.countP SourceUnit.compares) ∧
    (Rom.assemble (linkedProgram units) = .error .romOverflow ↔
      units.countP SourceUnit.compares < 2 ∧
        32768 < Command.totalWords (units.flatMap SourceUnit.commands)) ∧
    ((∃ name, Rom.assemble (linkedProgram units) = .error (.variableOverflow name)) ↔
      units.countP SourceUnit.compares < 2 ∧
        Command.totalWords (units.flatMap SourceUnit.commands) ≤ 32768 ∧
        240 < (staticUses units).eraseDups.length) ∧
    ((∃ rom, Rom.assemble (linkedProgram units) = .ok rom) ↔
      units.countP SourceUnit.compares < 2 ∧
        Command.totalWords (units.flatMap SourceUnit.commands) ≤ 32768 ∧
        (staticUses units).eraseDups.length ≤ 240) ∧
    ∀ unit : SourceUnit,
      (∀ name, Rom.assemble unit.compile.program ≠ .error (.duplicateLabel name)) ∧
      (∀ rom, Rom.assemble unit.compile.program = .ok rom →
        rom.vars.keys.toList = (staticUses [unit]).eraseDups.map useSymbol) ∧
      ∀ name, Rom.assemble unit.compile.program = .error (.variableOverflow name) →
        ∃ use ∈ staticUses [unit], name = useSymbol use := by
  have words := wordCount_linkedProgram clean
  have uses : (linkedProgram units).variableNames.length =
      (staticUses units).eraseDups.length := by
    rw [variableNames_linkedProgram, List.length_map]
  refine ⟨?_, ?_, ?_, ?_, ?_⟩
  · rw [Rom.assemble_eq_error_iff]
    exact fault_duplicateLabel_iff
  · rw [Rom.assemble_eq_error_iff, Program.fault_romOverflow_iff,
      nodup_labelNames_linkedProgram_iff, words]
    rfl
  · simp only [Rom.assemble_eq_error_iff]
    rw [Program.exists_fault_variableOverflow_iff, nodup_labelNames_linkedProgram_iff, words,
      uses]
    rfl
  · rw [Rom.exists_assemble_iff, ← uses, ← words, ← nodup_labelNames_linkedProgram_iff]
    constructor
    · rintro ⟨distinct, fits, few⟩
      exact ⟨distinct, fits, few⟩
    · rintro ⟨distinct, fits, few⟩
      exact ⟨distinct, fits, few⟩
  · intro unit
    refine ⟨not_duplicateLabel_compile unit, ?_, ?_⟩
    · intro rom assembled
      exact keys_vars_of_assemble assembled
    · intro name failed
      exact exists_use_of_variableOverflow failed

/-- Two copies of a unit with a comparison do not link, and one of them links with another unit. -/
theorem link_sampleUnits :
    Rom.assemble (linkedProgram [sampleMain, sampleMain]) = .error (.duplicateLabel "TRUE$1") ∧
    ∃ rom, Rom.assemble (linkedProgram [sampleMain, sampleUtil]) = .ok rom := by
  have twice : ∀ unit ∈ [sampleMain, sampleMain], unit.compile.hasError = false := by
    decide +kernel
  refine ⟨(link_exactly twice).1.2 (by decide +kernel), ?_⟩
  exact (link_exactly hasError_sampleUnits).2.2.2.1.2
    ⟨by decide +kernel, by decide +kernel, by decide +kernel⟩

end Hack.VM
