import Hack.Proofs.Rom.Symbols
import Hack.Proofs.VM.Comparison

/-!
The labels and symbols of the code of one command.

Only a comparison defines labels: the two with its number. Apart from names with a fixed meaning,
the code of a command loads the labels that it defines, each once, and the static variable that the
command moves (`Compiles.filter_symbolNames`). Labels tell the number of their comparison, and
symbols of static variables tell their unit and their index: whatever points the name of the unit
has, the digits of the index stand behind the last one.
-/

namespace Hack.VM

open Assembly

/-! ## Labels with numbers -/

/-- The two labels of a comparison, in the order of their definitions. -/
def LabelPair.names (labels : LabelPair) : List String := [labels.onTrue, labels.finish]

theorem LabelPair.mem_names {labels : LabelPair} {name : String} :
    name ∈ labels.names ↔ name = labels.onTrue ∨ name = labels.finish := by
  simp [names]

theorem LabelPair.number_eq {m n : Nat} {name : String}
    (left : name ∈ (ofNumber m).names) (right : name ∈ (ofNumber n).names) : m = n := by
  rw [mem_names] at left right
  rcases left with rfl | rfl <;> rcases right with same | same
  · exact Text.toString_inj ((String.append_right_inj _).1 same)
  · exact absurd same (onTrue_ne_finish m n)
  · exact absurd same.symm (onTrue_ne_finish n m)
  · exact Text.toString_inj ((String.append_right_inj _).1 same)

theorem LabelPair.nodup_names (number : Nat) : (ofNumber number).names.Nodup := by
  refine List.nodup_cons.2 ⟨fun member => ?_, List.nodup_cons.2 ⟨nofun, List.nodup_nil⟩⟩
  exact onTrue_ne_finish number number (List.mem_singleton.1 member)

theorem IsComparisonLabel.of_mem_names {number : Nat} {name : String}
    (member : name ∈ (LabelPair.ofNumber number).names) : IsComparisonLabel name :=
  ⟨number, LabelPair.mem_names.1 member⟩

/-- The labels of so many comparisons, numbered from one, in the order of their definitions. -/
def comparisonLabels (count : Nat) : List String :=
  (List.range' 1 count).flatMap fun number => (LabelPair.ofNumber number).names

theorem comparisonLabels_succ (count : Nat) :
    comparisonLabels (count + 1) =
      comparisonLabels count ++ (LabelPair.ofNumber (count + 1)).names := by
  unfold comparisonLabels
  rw [List.range'_concat, List.flatMap_append, Nat.one_mul, Nat.add_comm 1 count,
    List.flatMap_singleton]

example : comparisonLabels 2 = ["TRUE$1", "END$1", "TRUE$2", "END$2"] := by decide

theorem exists_of_mem_comparisonLabels {count : Nat} {name : String}
    (member : name ∈ comparisonLabels count) :
    ∃ number, number ≤ count ∧ name ∈ (LabelPair.ofNumber number).names := by
  obtain ⟨number, inside, member⟩ := List.mem_flatMap.1 member
  have bounds := List.mem_range'_1.1 inside
  exact ⟨number, by omega, member⟩

theorem nodup_comparisonLabels (count : Nat) : (comparisonLabels count).Nodup := by
  induction count with
  | zero => exact List.nodup_nil
  | succ count ih =>
    rw [comparisonLabels_succ]
    refine List.nodup_append.2 ⟨ih, LabelPair.nodup_names _, ?_⟩
    rintro name earlier _ later rfl
    obtain ⟨number, bound, earlier⟩ := exists_of_mem_comparisonLabels earlier
    have same := LabelPair.number_eq earlier later
    omega

/-! ## Symbols of static variables -/

/-- Two texts with a mark are equal in all parts if the mark is not repeated behind it. -/
theorem eq_of_append_cons {mark : Char} {front back front' back' : List Char}
    (last : mark ∉ back) (last' : mark ∉ back')
    (same : front ++ mark :: back = front' ++ mark :: back') : front = front' ∧ back = back' := by
  induction front generalizing front' with
  | nil =>
    cases front' with
    | nil => exact ⟨rfl, (List.cons.inj same).2⟩
    | cons c front' =>
      obtain ⟨_, rfl⟩ := List.cons.inj same
      exact absurd (List.mem_append_right _ List.mem_cons_self) last
  | cons c front ih =>
    cases front' with
    | nil =>
      obtain ⟨_, rest⟩ := List.cons.inj same
      rw [← rest] at last'
      exact absurd (List.mem_append_right _ List.mem_cons_self) last'
    | cons c' front' =>
      obtain ⟨rfl, rest⟩ := List.cons.inj same
      obtain ⟨rfl, rfl⟩ := ih rest
      exact ⟨rfl, rfl⟩

theorem toList_staticSymbol (unit : String) (index : Word) :
    (staticSymbol unit index).toList = unit.toList ++ '.' :: Nat.toDigits 10 index.toNat := by
  simp [staticSymbol]

/-- Static variables of different units or indexes have different symbols. -/
theorem staticSymbol_inj {unit unit' : String} {index index' : Word}
    (same : staticSymbol unit index = staticSymbol unit' index') :
    unit = unit' ∧ index = index' := by
  have texts := congrArg String.toList same
  rw [toList_staticSymbol, toList_staticSymbol] at texts
  obtain ⟨units, digits⟩ :=
    eq_of_append_cons (not_mem_toDigits (by decide) _) (not_mem_toDigits (by decide) _) texts
  refine ⟨String.toList_inj.1 units, BitVec.eq_of_toNat_eq ?_⟩
  rw [← Text.decimalValue_toDigits index.toNat, digits, Text.decimalValue_toDigits]

theorem not_isComparisonLabel_staticSymbol (unit : String) (index : Word) :
    ¬ IsComparisonLabel (staticSymbol unit index) := fun label =>
  label.point_not_mem (point_mem_staticSymbol unit index)

/-- The indexes of the static variables that a command moves: one or none. -/
def Command.statics : Command → List Word
  | .move _ .statics index => [index]
  | .operate _ | .move .. => []

theorem Command.statics_of_base? {segment : Segment} {base : Register}
    (known : segment.base? = some base) (direction : Direction) (index : Word) :
    (Command.move direction segment index).statics = [] := by
  cases segment with
  | constant | temp | pointer | statics => cases known
  | locals | arguments | this | that => rfl

/-! ## Names without a fixed meaning -/

/-- Whether a name has no fixed meaning. -/
def isUnfixed (name : String) : Bool := (predefined? name).isNone

theorem isUnfixed_iff {name : String} : isUnfixed name = true ↔ predefined? name = none :=
  Option.isNone_iff_eq_none

@[simp] theorem isUnfixed_register (register : Register) : isUnfixed register.name = false := by
  rw [isUnfixed, predefined?_register]
  rfl

@[simp] theorem isUnfixed_scratch : isUnfixed (cellName MemoryMap.scratch) = false := by
  rw [isUnfixed, predefined?_scratch]
  rfl

theorem isUnfixed_of_mark {name : String} (mark : '$' ∈ name.toList ∨ '.' ∈ name.toList) :
    isUnfixed name = true := by
  unfold isUnfixed
  cases found : predefined? name with
  | none => rfl
  | some address => exact absurd mark (not_or.2 (marks_of_predefined? found))

@[simp] theorem isUnfixed_staticSymbol (unit : String) (index : Word) :
    isUnfixed (staticSymbol unit index) = true :=
  isUnfixed_of_mark (Or.inr (point_mem_staticSymbol unit index))

theorem IsComparisonLabel.isUnfixed {name : String} (label : IsComparisonLabel name) :
    isUnfixed name = true := isUnfixed_of_mark (Or.inl label.dollar_mem)

/-! ## The code of a command -/

/-- A comparison loads each of its labels before it defines it. -/
theorem exists_symbol_before_label {jump : Jump} {labels : LabelPair} {name : String}
    (member : name ∈ labels.names) :
    ∃ front middle back : Program,
      Code.compare jump labels = front ++ .symbol name :: middle ++ .label name :: back := by
  rcases LabelPair.mem_names.1 member with rfl | rfl
  · exact ⟨Code.popOperands ++ [.set { d := true } (.yMinusD .m)],
      .branch .d jump :: (Code.deny labels ++ [.branch .zero .always]),
      Code.unary .minusOne ++ [.label labels.finish], rfl⟩
  · exact ⟨Code.subtract labels ++ .branch .d jump :: Code.unary .zero,
      .branch .zero .always :: .label labels.onTrue :: Code.unary .minusOne, [], rfl⟩

theorem filter_symbolNames_compare (jump : Jump) (number : Nat) :
    (Code.compare jump (.ofNumber number)).symbolNames.filter isUnfixed =
      (Code.compare jump (.ofNumber number)).labelNames := by
  have unfixed : ∀ name ∈ (LabelPair.ofNumber number).names, isUnfixed name = true :=
    fun name member => (IsComparisonLabel.of_mem_names member).isUnfixed
  simp only [LabelPair.names, List.forall_mem_cons] at unfixed
  show [Register.sp.name, _, Register.sp.name, _, Register.sp.name].filter isUnfixed =
    (LabelPair.ofNumber number).names
  simp [unfixed, LabelPair.names]

section

variable {unit : String} {command : Command} {code : Program}
  (compiled : Compiles unit command code)

include compiled

theorem Compiles.labelNames_of_plain (plain : command.isComparison = false) :
    code.labelNames = [] := by
  cases compiled with
  | operate number op => cases op <;> first | rfl | cases plain
  | push reached => cases reached <;> rfl
  | pop reached popped => cases reached <;> cases popped <;> rfl

/-- Apart from names with a fixed meaning, the code of a command loads its labels and its static
variable. -/
theorem Compiles.filter_symbolNames :
    code.symbolNames.filter isUnfixed =
      code.labelNames ++ command.statics.map (staticSymbol unit) := by
  -- the names of each shape of code stand in the goals, in the order in which they are loaded
  cases compiled with
  | operate number op =>
    cases op with
    | eq => exact filter_symbolNames_compare .eq number
    | gt => exact filter_symbolNames_compare .gt number
    | lt => exact filter_symbolNames_compare .lt number
    | add | sub | neg | and | or | not =>
      show [Register.sp.name].filter isUnfixed = []
      simp
  | @push segment index _ reached =>
    cases reached with
    | constant | temp | pointer =>
      show [Register.sp.name, Register.sp.name].filter isUnfixed = []
      simp
    | @indirect _ base known =>
      rw [Command.statics_of_base? known]
      show [base.name, Register.sp.name, Register.sp.name].filter isUnfixed = []
      simp
    | statics =>
      show [staticSymbol unit index, Register.sp.name, Register.sp.name].filter isUnfixed = [_]
      simp
  | @pop segment index _ _ reached popped =>
    cases reached with
    | constant => cases popped
    | temp | pointer =>
      cases popped
      show [Register.sp.name].filter isUnfixed = []
      simp
    | @indirect _ base known =>
      cases popped
      rw [Command.statics_of_base? known]
      show [base.name, cellName MemoryMap.scratch, Register.sp.name,
        cellName MemoryMap.scratch].filter isUnfixed = []
      simp
    | statics =>
      cases popped
      show [Register.sp.name, staticSymbol unit index].filter isUnfixed = [_]
      simp

/-- The code of a command loads a label as often as it defines it. -/
theorem Compiles.count_symbolNames {name : String} (label : IsComparisonLabel name) :
    code.symbolNames.count name = code.labelNames.count name := by
  have absent : name ∉ command.statics.map (staticSymbol unit) := by
    intro member
    obtain ⟨index, _, rfl⟩ := List.mem_map.1 member
    exact not_isComparisonLabel_staticSymbol unit index label
  rw [← List.count_filter label.isUnfixed, compiled.filter_symbolNames, List.count_append,
    List.count_eq_zero_of_not_mem absent, Nat.add_zero]

end

end Hack.VM
