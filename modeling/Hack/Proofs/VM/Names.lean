import Hack.Proofs.Rom.Linking
import Hack.Proofs.VM.Compilation

/-!
The names in compiled code and what they stand for.

Compiled code uses predefined names, the labels of comparisons and the symbols of static variables.
A label of a comparison has a `$` and no `.`; a predefined name has neither, and the symbol of a
static variable has a `.`. So the labels hide no other name: in an assembled program whose labels
are all labels of comparisons, the names mean what the calling convention says (`Rom.Conventional`).
-/

namespace Hack

open Assembly

/-- An assembled program in which no label hides a predefined name or a static variable, and which
fits the instruction memory. -/
structure Rom.Conventional (rom : Rom) : Prop where
  predefined {name : String} {address : Nat} :
    predefined? name = some address → rom.addressOf? name = some address
  statics (unit : String) (index : Word) :
    rom.addressOf? (VM.staticSymbol unit index) = rom.cellOf? (VM.staticSymbol unit index)
  size_le : rom.size ≤ MemoryMap.romSize

namespace VM

/-- The two labels of some comparison. -/
def IsComparisonLabel (name : String) : Prop :=
  ∃ number, name = (LabelPair.ofNumber number).onTrue ∨ name = (LabelPair.ofNumber number).finish

/-! ## Marks in names -/

theorem not_mem_toDigits {c : Char} (mark : c.isDigit = false) (n : Nat) :
    c ∉ Nat.toDigits 10 n := by
  intro member
  rw [Nat.isDigit_of_mem_toDigits (by decide) (by decide) member] at mark
  cases mark

theorem IsComparisonLabel.dollar_mem {name : String} (label : IsComparisonLabel name) :
    '$' ∈ name.toList := by
  obtain ⟨number, rfl | rfl⟩ := label <;> simp [LabelPair.ofNumber]

theorem IsComparisonLabel.point_not_mem {name : String} (label : IsComparisonLabel name) :
    '.' ∉ name.toList := by
  obtain ⟨number, rfl | rfl⟩ := label <;>
    simp [LabelPair.ofNumber, not_mem_toDigits]

theorem LabelPair.onTrue_ne_finish (m n : Nat) : (ofNumber m).onTrue ≠ (ofNumber n).finish := by
  intro same
  have letters := congrArg String.toList same
  simp [ofNumber] at letters

theorem point_mem_staticSymbol (unit : String) (index : Word) :
    '.' ∈ (staticSymbol unit index).toList := by
  simp [staticSymbol]

/-- No predefined name has one of the two marks. -/
theorem marks_of_predefined? {name : String} {address : Nat}
    (found : predefined? name = some address) : '$' ∉ name.toList ∧ '.' ∉ name.toList := by
  have unmarked : ∀ entry ∈ predefinedSymbols,
      '$' ∉ entry.1.toList ∧ '.' ∉ entry.1.toList := by decide
  obtain ⟨_, _, entries, _⟩ := List.lookup_eq_some_iff.1 found
  exact unmarked (name, address) (by rw [entries]; simp)

theorem predefined?_register (register : Register) :
    predefined? register.name = some register.address := by
  cases register <;> decide

theorem predefined?_scratch :
    predefined? (cellName MemoryMap.scratch) = some MemoryMap.scratch := by
  decide

/-! ## Labels of compiled code -/

theorem isComparisonLabel_of_mem_compare {jump : Jump} {number : Nat} {name : String}
    (member : .label name ∈ Code.compare jump (LabelPair.ofNumber number)) :
    IsComparisonLabel name := by
  refine ⟨number, ?_⟩
  simpa [Code.compare, Code.popOperands, Code.popD, Code.top, Statement.register, Statement.symbol,
    Statement.set, Statement.branch] using member

theorem Compiles.isComparisonLabel {unit : String} {command : Command} {code : Program}
    (compiled : Compiles unit command code) {name : String} (member : .label name ∈ code) :
    IsComparisonLabel name := by
  cases compiled with
  | operate number op =>
    cases op with
    | eq => exact isComparisonLabel_of_mem_compare member
    | gt => exact isComparisonLabel_of_mem_compare member
    | lt => exact isComparisonLabel_of_mem_compare member
    | add | sub | neg | and | or | not =>
      simp [Code.operate, Code.binary, Code.unary, Code.popOperands, Code.popD, Code.top,
        Statement.register, Statement.symbol, Statement.set] at member
  | push reached =>
    cases reached <;>
      simp [Code.push, Code.pushD, Statement.register, Statement.symbol, Statement.set,
        Statement.value] at member
  | pop reached popped =>
    cases reached <;> cases popped <;>
      simp [Code.popD, Statement.register, Statement.symbol, Statement.set,
        Statement.value] at member

/-- A move of a static variable loads its symbol. -/
theorem Compiles.symbol_mem {unit : String} {direction : Direction} {index : Word} {code : Program}
    (compiled : Compiles unit (.move direction .statics index) code) :
    .load (.symbol (staticSymbol unit index)) ∈ code := by
  cases compiled with
  | push reached =>
    cases reached with
    | indirect known => cases known
    | statics => exact List.mem_cons_self
  | pop reached popped =>
    cases reached with
    | indirect known => cases known
    | statics =>
      cases popped
      exact List.mem_append_right _ List.mem_cons_self

/-- Labels of comparisons hide no other name. -/
theorem conventional_of_assemble {program : Program} {rom : Rom}
    (assembled : Rom.assemble program = .ok rom)
    (labels : ∀ name, .label name ∈ program → IsComparisonLabel name) : rom.Conventional := by
  have unlabelled {name : String} (plain : ¬ IsComparisonLabel name) :
      rom.labels.get? name = none := by
    cases found : rom.labels.get? name with
    | none => rfl
    | some address => exact absurd (labels name (Rom.mem_of_label? assembled found)) plain
  constructor
  · intro name address found
    have plain : ¬ IsComparisonLabel name := fun label =>
      (marks_of_predefined? found).1 label.dollar_mem
    unfold Rom.addressOf? addressIn?
    rw [unlabelled plain, found]
    rfl
  · intro unit index
    have point := point_mem_staticSymbol unit index
    have plain : ¬ IsComparisonLabel (staticSymbol unit index) := fun label =>
      label.point_not_mem point
    have free : predefined? (staticSymbol unit index) = none := by
      cases found : predefined? (staticSymbol unit index) with
      | none => rfl
      | some address => exact absurd point (marks_of_predefined? found).2
    unfold Rom.addressOf? addressIn?
    rw [unlabelled plain, free]
    rfl
  · exact Rom.size_le_of_assemble assembled

end VM

end Hack
