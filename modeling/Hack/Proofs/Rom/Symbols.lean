import Hack.Proofs.Rom.Linking

/-!
The symbols of a program, and what the two passes of the assembler make of them.

A program defines labels and loads symbols. A symbol that no statement defines and that has no fixed
meaning is a variable of the program, and `variableNames` lists the variables in the order of their
first uses. The first pass fails exactly at the first label that was defined before
(`labels_of_nodup`, `labels_of_firstRepeated`). While the second pass goes through the program
its table lists the variables used so far, with the cells from the first one for variables on
(`Numbered`); it fails exactly at the first variable for which no cell is left
(`instrsFrom_numbered`).
-/

namespace Hack

open Assembly

/-! ## First occurrences in a list -/

section FirstOccurrences

variable {α : Type} [BEq α] [LawfulBEq α]

theorem nodup_eraseDups : (list : List α) → list.eraseDups.Nodup
  | [] => List.nodup_nil
  | head :: rest => by
    rw [List.eraseDups_cons, List.nodup_cons, List.mem_eraseDups]
    refine ⟨fun member => ?_, nodup_eraseDups _⟩
    simpa using (List.mem_filter.1 member).2
termination_by list => list.length
decreasing_by exact Nat.lt_succ_of_le (List.length_filter_le _ _)

theorem eraseDups_concat_of_mem {list : List α} {last : α} (known : last ∈ list) :
    (list ++ [last]).eraseDups = list.eraseDups := by
  rw [List.eraseDups_append, List.cons_removeAll, List.contains_iff_mem.2 known]
  exact List.append_nil _

theorem eraseDups_concat_of_not_mem {list : List α} {last : α} (fresh : last ∉ list) :
    (list ++ [last]).eraseDups = list.eraseDups ++ [last] := by
  have unknown : list.contains last = false := by
    rw [List.contains_eq_mem, decide_eq_false fresh]
  rw [List.eraseDups_append, List.cons_removeAll, unknown]
  rfl

theorem eraseDups_map {β : Type} [BEq β] [LawfulBEq β] {f : α → β}
    (injective : ∀ {a b : α}, f a = f b → a = b) :
    (list : List α) → (list.map f).eraseDups = list.eraseDups.map f
  | [] => rfl
  | head :: rest => by
    have others : ((rest.map f).filter fun entry => !entry == f head) =
        (rest.filter fun entry => !entry == head).map f := by
      rw [List.filter_map]
      refine congrArg (List.map f) (List.filter_congr fun entry _ => ?_)
      by_cases same : entry = head
      · simp [same]
      · rw [Function.comp_apply, beq_eq_false_iff_ne.2 same,
          beq_eq_false_iff_ne.2 fun equal => same (injective equal)]
    rw [List.map_cons, List.eraseDups_cons, List.eraseDups_cons, List.map_cons, others,
      eraseDups_map injective]
termination_by list => list.length
decreasing_by exact Nat.lt_succ_of_le (List.length_filter_le _ _)

theorem idxOf?_append_of_not_mem {front back : List α} {entry : α} (first : entry ∉ front) :
    (front ++ entry :: back).idxOf? entry = some front.length := by
  have absent : front.findIdx? (· == entry) = none := List.idxOf?_eq_none_iff.2 first
  rw [List.idxOf?, List.findIdx?_append, absent, List.findIdx?_cons]
  simp

theorem idxOf?_eq_some_iff_of_nodup {list : List α} (distinct : list.Nodup) {entry : α}
    {position : Nat} : list.idxOf? entry = some position ↔ list[position]? = some entry := by
  rw [List.idxOf?_eq_some_iff, List.getElem?_eq_some_iff]
  refine exists_congr fun inside => and_iff_left_of_imp ?_
  rintro rfl other before same
  have equal : other = position := (List.getElem_inj distinct).1 same
  omega

/-- Among numbered entries an entry is found at its first position. -/
theorem lookup_zipIdx (list : List α) (start : Nat) (entry : α) :
    (list.zipIdx start).lookup entry = (list.idxOf? entry).map (start + ·) := by
  induction list generalizing start with
  | nil => rfl
  | cons head rest ih =>
    rw [List.zipIdx_cons, List.lookup_cons, List.idxOf?_cons, ih]
    by_cases same : entry = head
    · simp [same]
    · simp only [beq_eq_false_iff_ne.2 same, beq_eq_false_iff_ne.2 (Ne.symm same),
        Bool.false_eq_true, if_false, Option.map_map]
      congr 1
      funext position
      simp only [Function.comp_apply]
      omega

end FirstOccurrences

namespace Assembly.Program

/-- The labels that a program defines, in the order of their definitions. -/
def labelNames (program : Program) : List String :=
  program.filterMap fun
    | .label name => some name
    | _ => none

/-- The symbols that a program loads, in the order of their uses. -/
def symbolNames (program : Program) : List String :=
  program.filterMap fun
    | .load (.symbol name) => some name
    | _ => none

/-- Whether a symbol stands for a variable: no label has its name, and it has no fixed meaning. -/
def isVariable (program : Program) (name : String) : Bool :=
  !program.labelNames.contains name && (predefined? name).isNone

/-- The variables that a piece of a program uses, in the order of their first uses. -/
def variablesIn (program piece : Program) : List String :=
  (piece.symbolNames.filter program.isVariable).eraseDups

/-- The variables of a program, in the order of their first uses. -/
def variableNames (program : Program) : List String := program.variablesIn program

/-- A label statement for the name is the first one whose name was defined before. -/
def FirstRepeated (program : Program) (name : String) : Prop :=
  ∃ front back : Program, program = front ++ .label name :: back ∧ front.labelNames.Nodup ∧
    name ∈ front.labelNames

theorem labelNames_append (front back : Program) :
    labelNames (front ++ back) = labelNames front ++ labelNames back := List.filterMap_append

theorem symbolNames_append (front back : Program) :
    symbolNames (front ++ back) = symbolNames front ++ symbolNames back := List.filterMap_append

theorem symbolNames_flatMap {α : Type} (code : α → Program) (list : List α) :
    symbolNames (list.flatMap code) = list.flatMap fun entry => (code entry).symbolNames :=
  List.filterMap_flatMap

theorem mem_labelNames {program : Program} {name : String} :
    name ∈ program.labelNames ↔ .label name ∈ program := by
  unfold labelNames
  rw [List.mem_filterMap]
  constructor
  · intro known
    obtain ⟨statement, member, found⟩ := known
    split at found <;> cases found
    exact member
  · intro member
    exact ⟨_, member, rfl⟩

theorem mem_symbolNames {program : Program} {name : String} :
    name ∈ program.symbolNames ↔ .load (.symbol name) ∈ program := by
  unfold symbolNames
  rw [List.mem_filterMap]
  constructor
  · intro known
    obtain ⟨statement, member, found⟩ := known
    split at found <;> cases found
    exact member
  · intro member
    exact ⟨_, member, rfl⟩

theorem isVariable_iff {program : Program} {name : String} :
    program.isVariable name = true ↔ name ∉ program.labelNames ∧ predefined? name = none := by
  simp [isVariable]

/-! ## The first pass -/

/-- A label is the first repeated one of a program if it is that of the list of its labels. -/
theorem firstRepeated_of_labelNames {program : Program} {front back : List String} {name : String}
    (split : program.labelNames = front ++ name :: back) (distinct : front.Nodup)
    (known : name ∈ front) : program.FirstRepeated name := by
  obtain ⟨before, behind, rfl, rfl, rest⟩ := List.filterMap_eq_append_iff.1 split
  obtain ⟨between, statement, after, rfl, unlabelled, label, _⟩ := List.filterMap_eq_cons_iff.1 rest
  have same : labelNames (before ++ between) = labelNames before := by
    have none : labelNames between = [] := List.filterMap_eq_nil_iff.2 unlabelled
    rw [labelNames_append, none, List.append_nil]
  split at label <;> cases label
  refine ⟨before ++ between, after, (List.append_assoc ..).symm, ?_, ?_⟩
  · rw [same]
    exact distinct
  · rw [same]
    exact known

theorem FirstRepeated.not_nodup {program : Program} {name : String}
    (repeated : program.FirstRepeated name) : ¬ program.labelNames.Nodup := by
  obtain ⟨front, back, rfl, _, known⟩ := repeated
  rw [labelNames_append]
  intro distinct
  exact (List.nodup_append.1 distinct).2.2 name known name List.mem_cons_self rfl

/-- The labels of a program are pairwise different, or one of them is the first that was defined
before. -/
theorem nodup_or_firstRepeated (program : Program) :
    program.labelNames.Nodup ∨ ∃ name, program.FirstRepeated name := by
  suffices behind : ∀ front back : Program, program = front ++ back → front.labelNames.Nodup →
      program.labelNames.Nodup ∨ ∃ name, program.FirstRepeated name from
    behind [] program rfl List.nodup_nil
  intro front back split distinct
  induction back generalizing front with
  | nil =>
    rw [List.append_nil] at split
    exact Or.inl (split ▸ distinct)
  | cons statement back ih =>
    have shifted : program = front ++ [statement] ++ back := by
      rw [split, List.append_assoc]
      rfl
    cases statement with
    | label name =>
      by_cases known : name ∈ front.labelNames
      · exact Or.inr ⟨name, front, back, split, distinct, known⟩
      · refine ih _ shifted ?_
        rw [labelNames_append]
        refine List.nodup_append.2 ⟨distinct, List.nodup_cons.2 ⟨nofun, List.nodup_nil⟩, ?_⟩
        rintro other member _ last rfl
        rw [List.mem_singleton.1 last] at member
        exact known member
    | _ =>
      refine ih _ shifted ?_
      rw [labelNames_append]
      exact (List.append_nil _).symm ▸ distinct

theorem labelsFrom_cons_new {address : Nat} {labels : Table String Nat} {name : String}
    (new : labels.get? name = none) (rest : Program) :
    labelsFrom address labels (.label name :: rest) =
      labelsFrom address (labels.insert name address) rest := by
  have unknown : ¬ labels.contains name = true := by
    rw [← Table.isSome_get?, new]
    exact Bool.false_ne_true
  rw [labelsFrom, if_neg unknown]

theorem labelsFrom_append {address : Nat} {labels middle : Table String Nat} {front : Program}
    (collected : labelsFrom address labels front = .ok middle) (back : Program) :
    labelsFrom address labels (front ++ back) =
      labelsFrom (address + front.wordCount) middle back := by
  induction front generalizing address labels with
  | nil =>
    cases collected
    rfl
  | cons statement front ih =>
    rw [wordCount_cons, ← Nat.add_assoc]
    cases statement with
    | label name =>
      rcases labelsFrom_cons_label collected with ⟨new, later⟩
      rw [List.cons_append, labelsFrom_cons_new new]
      exact ih later
    | _ => exact ih collected

/-- The first pass accepts labels that are pairwise different and new, and lists them behind those
that it has already. -/
theorem labelsFrom_of_nodup {address : Nat} {labels : Table String Nat} {program : Program}
    (distinct : program.labelNames.Nodup)
    (fresh : ∀ name ∈ program.labelNames, labels.get? name = none) :
    ∃ final, labelsFrom address labels program = .ok final ∧
      final.keys.toList = labels.keys.toList ++ program.labelNames := by
  induction program generalizing address labels with
  | nil => exact ⟨labels, rfl, (List.append_nil _).symm⟩
  | cons statement rest ih =>
    cases statement with
    | label name =>
      rcases List.nodup_cons.1 distinct with ⟨once, distinct⟩
      have new := fresh name List.mem_cons_self
      have later (other : String) (member : other ∈ labelNames rest) :
          (labels.insert name address).get? other = none := by
        have differ : name ≠ other := by
          rintro rfl
          exact once member
        rw [Table.get?_insert, beq_eq_false_iff_ne.2 differ]
        exact fresh other (.tail _ member)
      rcases ih distinct later with ⟨final, collected, keys⟩
      refine ⟨final, ?_, ?_⟩
      · rw [labelsFrom_cons_new new]
        exact collected
      · rw [keys, Table.toList_keys_insert new, List.append_assoc]
        rfl
    | _ => exact ih distinct fresh

theorem labels_of_nodup {program : Program} (distinct : program.labelNames.Nodup) :
    ∃ final, program.labels = .ok final ∧ final.keys.toList = program.labelNames :=
  labelsFrom_of_nodup distinct fun name _ => Table.get?_empty name

/-- The first pass fails at the first label that was defined before. -/
theorem labels_of_firstRepeated {program : Program} {name : String}
    (repeated : program.FirstRepeated name) :
    program.labels = .error (.duplicateLabel name) := by
  rcases repeated with ⟨front, back, rfl, distinct, known⟩
  rcases labels_of_nodup distinct with ⟨middle, collected, keys⟩
  have contained : middle.contains name = true := by
    rw [Table.contains_iff_mem_keys, ← Array.mem_toList_iff, keys]
    exact known
  rw [labels, labelsFrom_append collected, labelsFrom, if_pos contained]

/-! ## The second pass -/

/-- A table of variables lists the given names, with one cell after the other from the first one for
variables on. -/
def Numbered (vars : Table String Nat) (names : List String) : Prop :=
  vars.toList = names.zipIdx MemoryMap.firstVariable

namespace Numbered

variable {vars : Table String Nat} {names : List String} (numbered : Numbered vars names)

include numbered

theorem keys : vars.keys.toList = names := by
  rw [← Table.map_fst_toList, numbered, List.zipIdx_map_fst]

theorem size : vars.size = names.length := by
  rw [← numbered.keys, Array.length_toList, Table.size]

theorem get? (name : String) :
    vars.get? name = (names.idxOf? name).map (MemoryMap.firstVariable + ·) := by
  rw [Table.get?_eq_lookup, numbered, lookup_zipIdx]

theorem get?_eq_none_iff {name : String} : vars.get? name = none ↔ name ∉ names := by
  rw [Table.get?_eq_none_iff, numbered.keys]

theorem insert {name : String} (fresh : name ∉ names) :
    Numbered (vars.insert name (MemoryMap.firstVariable + vars.size)) (names ++ [name]) := by
  unfold Numbered
  rw [Table.toList_insert (numbered.get?_eq_none_iff.2 fresh), numbered, List.zipIdx_append,
    numbered.size]
  rfl

end Numbered

/-- The number of cells for variables. -/
def variableCells : Nat := MemoryMap.stack - MemoryMap.firstVariable

section SecondPass

-- `free` tells the symbols that are neither labels nor have a fixed meaning
variable {labels vars : Table String Nat} {free : String → Bool}
  (spec : ∀ name, free name = true ↔ labels.get? name = none ∧ predefined? name = none)

include spec

theorem resolve_of_bound {name : String} (bound : free name = false) :
    ∃ address, resolve labels vars name = .ok (address, vars) := by
  unfold resolve
  split
  · exact ⟨_, rfl⟩
  · next label =>
    split
    · exact ⟨_, rfl⟩
    · next fixed =>
      rw [(spec name).2 ⟨label, fixed⟩] at bound
      cases bound

theorem resolve_of_used {name : String} (isFree : free name = true) {address : Nat}
    (used : vars.get? name = some address) :
    resolve labels vars name = .ok (address, vars) := by
  rcases (spec name).1 isFree with ⟨label, fixed⟩
  simp only [resolve, label, fixed, used]

/-- A variable that was not used before gets the next cell, if there is one. -/
theorem resolve_of_new {name : String} (isFree : free name = true)
    (new : vars.get? name = none) :
    resolve labels vars name =
      if vars.size < variableCells then
        .ok (MemoryMap.firstVariable + vars.size,
          vars.insert name (MemoryMap.firstVariable + vars.size))
      else .error (.variableOverflow name) := by
  rcases (spec name).1 isFree with ⟨label, fixed⟩
  have limit : MemoryMap.firstVariable + variableCells = MemoryMap.stack := rfl
  have left :
      MemoryMap.firstVariable + vars.size < MemoryMap.stack ↔ vars.size < variableCells := by omega
  simp only [resolve, label, fixed, new, left]

-- `seen` are the variables that were used before, in order and perhaps more than once
variable {seen : List String} (numbered : Numbered vars seen.eraseDups)
  (room : seen.eraseDups.length ≤ variableCells)

include numbered room

/-- A symbol is resolved, where a variable that is new gets the next cell, or it is the first
variable for which no cell is left. -/
theorem resolve_numbered (name : String) :
    (∃ address later, resolve labels vars name = .ok (address, later) ∧
        Numbered later (seen ++ [name].filter free).eraseDups ∧
        (seen ++ [name].filter free).eraseDups.length ≤ variableCells) ∨
      resolve labels vars name = .error (.variableOverflow name) ∧
        (seen ++ [name].filter free).eraseDups[variableCells]? = some name := by
  cases isFree : free name with
  | false =>
    have bound : ∃ address, resolve labels vars name = .ok (address, vars) :=
      resolve_of_bound spec isFree
    rcases bound with ⟨address, resolved⟩
    rw [List.filter_cons_of_neg (Bool.not_eq_true _ ▸ isFree), List.filter_nil, List.append_nil]
    exact Or.inl ⟨address, vars, resolved, numbered, room⟩
  | true =>
    rw [List.filter_cons_of_pos isFree, List.filter_nil]
    cases used : vars.get? name with
    | some address =>
      have known : name ∈ seen := by
        refine List.mem_eraseDups.1 (Decidable.byContradiction fun fresh => ?_)
        rw [numbered.get?_eq_none_iff.2 fresh] at used
        cases used
      rw [eraseDups_concat_of_mem known]
      exact Or.inl ⟨address, vars, resolve_of_used spec isFree used, numbered, room⟩
    | none =>
      have fresh : name ∉ seen.eraseDups := numbered.get?_eq_none_iff.1 used
      have size := numbered.size
      rw [resolve_of_new spec isFree used,
        eraseDups_concat_of_not_mem (mt List.mem_eraseDups.2 fresh)]
      by_cases left : vars.size < variableCells
      · rw [if_pos left]
        refine Or.inl ⟨_, _, rfl, numbered.insert fresh, ?_⟩
        rw [List.length_append, List.length_singleton]
        omega
      · have full : seen.eraseDups.length = variableCells := by omega
        rw [if_neg left, ← full, List.getElem?_concat_length]
        exact Or.inr ⟨rfl, rfl⟩

/-- The second pass gives the variables their cells in the order of their first uses, or it fails at
the first variable for which no cell is left. -/
theorem instrsFrom_numbered (instrs : Array Instr) (program : Program) :
    (∃ final later, instrsFrom labels vars instrs program = .ok (final, later) ∧
        Numbered later (seen ++ program.symbolNames.filter free).eraseDups ∧
        (seen ++ program.symbolNames.filter free).eraseDups.length ≤ variableCells) ∨
      ∃ name, instrsFrom labels vars instrs program = .error (.variableOverflow name) ∧
        (seen ++ program.symbolNames.filter free).eraseDups[variableCells]? = some name := by
  induction program generalizing vars instrs seen with
  | nil =>
    rw [show symbolNames [] = [] from rfl, List.filter_nil, List.append_nil]
    exact Or.inl ⟨instrs, vars, rfl, numbered, room⟩
  | cons statement rest ih =>
    cases statement with
    | load operand =>
      cases operand with
      | value n => exact ih numbered room _
      | symbol name =>
        have uses : symbolNames (.load (.symbol name) :: rest) = [name] ++ symbolNames rest := rfl
        rw [uses, List.filter_append, ← List.append_assoc]
        rcases resolve_numbered spec numbered room name with
          ⟨address, later, resolved, numbered, room⟩ | ⟨failed, overflow⟩
        · simp only [instrsFrom, resolved]
          exact ih numbered room _
        · refine Or.inr ⟨name, ?_, ?_⟩
          · simp only [instrsFrom, failed]
          · -- what is used later stands behind the variable that has no cell
            rw [List.eraseDups_append]
            rw [List.getElem?_append_left (List.getElem?_eq_some_iff.1 overflow).1]
            exact overflow
    | _ => exact ih numbered room _

end SecondPass

/-- With the labels of the whole program, the second pass gives all of its variables their cells, or
it fails at the first one for which no cell is left. -/
theorem instrsFrom_of_labels {program : Program} {labels : Table String Nat}
    (keys : labels.keys.toList = program.labelNames) :
    (∃ instrs vars, program.instrsFrom labels {} #[] = .ok (instrs, vars) ∧
        Numbered vars program.variableNames ∧ program.variableNames.length ≤ variableCells) ∨
      ∃ name, program.instrsFrom labels {} #[] = .error (.variableOverflow name) ∧
        program.variableNames[variableCells]? = some name := by
  have spec (name : String) :
      program.isVariable name = true ↔ labels.get? name = none ∧ predefined? name = none := by
    rw [isVariable_iff, ← keys, Table.get?_eq_none_iff]
  have start : Numbered {} ([] : List String).eraseDups := rfl
  exact instrsFrom_numbered spec start (Nat.zero_le _) #[] program

end Assembly.Program

end Hack
