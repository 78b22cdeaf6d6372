import Hack.Rom.Assemble

/-!
What an assembled program holds.

The two passes of the assembler work with tables that grow while statements are read. Afterwards the
final tables alone explain every word: `addressOf?` reads a symbol in them, `Statement.link?` turns
a statement into its instruction, and `map_link?_of_assemble` says that the instruction memory holds
the linked statements, one after the other and nothing else. `Placed` states the same of a piece of
a program at its address, with the labels that it defines, and can be taken apart along the piece.
-/

namespace Hack

open Assembly

/-- The address that a symbol stands for, given labels and variables: that of the label, else the
predefined one, else the cell of the variable. -/
def addressIn? (labels vars : Table String Nat) (name : String) : Option Nat :=
  (labels.get? name).or ((predefined? name).or (vars.get? name))

/-- The address that a symbol stands for in an assembled program. -/
def Rom.addressOf? (rom : Rom) (name : String) : Option Nat := addressIn? rom.labels rom.vars name

/-- The instruction of a statement, given what symbols stand for. -/
def Assembly.Statement.link? (addressOf? : String → Option Nat) : Statement → Option Instr
  | .load (.value n) => some (.load n)
  | .load (.symbol name) => (addressOf? name).map fun address => .load (.ofNat 16 address)
  | .compute dest comp jump => some (.compute dest comp jump)
  | .label _ | .comment _ => none

namespace Assembly

/-- The number of instruction words of a statement. -/
def Statement.words (statement : Statement) : Nat := if statement.isInstruction then 1 else 0

namespace Program

/-! ## Words of a program -/

@[simp] theorem wordCount_nil : wordCount [] = 0 := rfl

@[simp] theorem wordCount_cons (statement : Statement) (rest : Program) :
    wordCount (statement :: rest) = statement.words + wordCount rest := by
  unfold wordCount Statement.words
  rw [List.countP_cons, Nat.add_comm]

@[simp] theorem wordCount_append (front back : Program) :
    wordCount (front ++ back) = wordCount front + wordCount back := List.countP_append

/-! ## The first pass -/

theorem labelsFrom_cons_label {address : Nat} {labels final : Table String Nat} {name : String}
    {rest : Program} (collected : labelsFrom address labels (.label name :: rest) = .ok final) :
    labels.get? name = none ∧ labelsFrom address (labels.insert name address) rest = .ok final := by
  rw [labelsFrom] at collected
  split at collected
  · cases collected
  · next fresh =>
    rw [← Table.isSome_get?] at fresh
    exact ⟨Option.not_isSome_iff_eq_none.1 fresh, collected⟩

/-- A label keeps the address that it was given first. -/
theorem get?_of_labelsFrom {address : Nat} {labels final : Table String Nat} {program : Program}
    (collected : labelsFrom address labels program = .ok final) {name : String} {known : Nat}
    (found : labels.get? name = some known) : final.get? name = some known := by
  induction program generalizing address labels with
  | nil => cases collected; exact found
  | cons statement rest ih =>
    cases statement with
    | label new =>
      rcases labelsFrom_cons_label collected with ⟨fresh, later⟩
      have differ : new ≠ name := by
        rintro rfl
        rw [fresh] at found
        cases found
      refine ih later ?_
      rw [Table.get?_insert, beq_eq_false_iff_ne.2 differ]
      exact found
    | _ => exact ih collected found

/-- The address of a label is the number of words before its definition. -/
theorem get?_label_of_labelsFrom {address : Nat} {labels final : Table String Nat}
    {front back : Program} {name : String}
    (collected : labelsFrom address labels (front ++ .label name :: back) = .ok final) :
    final.get? name = some (address + front.wordCount) := by
  induction front generalizing address labels with
  | nil =>
    rcases labelsFrom_cons_label collected with ⟨_, later⟩
    refine get?_of_labelsFrom later ?_
    rw [Table.get?_insert, beq_self_eq_true]
    rfl
  | cons statement front ih =>
    rw [wordCount_cons, ← Nat.add_assoc]
    cases statement with
    | label other => exact ih (labelsFrom_cons_label collected).2
    | _ => exact ih collected

/-- Nothing else is a label. -/
theorem mem_of_labelsFrom {address : Nat} {labels final : Table String Nat} {program : Program}
    (collected : labelsFrom address labels program = .ok final) {name : String} {known : Nat}
    (found : final.get? name = some known) :
    labels.get? name = some known ∨ .label name ∈ program := by
  induction program generalizing address labels with
  | nil => cases collected; exact Or.inl found
  | cons statement rest ih =>
    cases statement with
    | label new =>
      rcases ih (labelsFrom_cons_label collected).2 with inserted | later
      · by_cases same : new = name
        · subst same
          exact Or.inr List.mem_cons_self
        · rw [Table.get?_insert, beq_eq_false_iff_ne.2 same] at inserted
          exact Or.inl inserted
      · exact Or.inr (List.mem_cons_of_mem _ later)
    | _ => exact (ih collected).imp_right (List.mem_cons_of_mem _)

/-! ## The second pass -/

/-- A resolved symbol keeps its meaning as long as known variables keep their cells. -/
theorem addressIn?_mono {labels vars later : Table String Nat}
    (kept : ∀ name address, vars.get? name = some address → later.get? name = some address)
    {name : String} {address : Nat} (found : addressIn? labels vars name = some address) :
    addressIn? labels later name = some address := by
  unfold addressIn? at found ⊢
  cases label : labels.get? name with
  | some known => rw [label] at found; exact found
  | none =>
    cases fixed : predefined? name with
    | some known => rw [label, fixed] at found; exact found
    | none =>
      rw [label, fixed] at found
      exact kept name address found

/-- A symbol that is resolved stands for its address in the tables afterwards, and no variable loses
its cell. -/
theorem addressIn?_of_resolve {labels vars later : Table String Nat} {name : String} {address : Nat}
    (resolved : resolve labels vars name = .ok (address, later)) :
    addressIn? labels later name = some address ∧
      ∀ known cell, vars.get? known = some cell → later.get? known = some cell := by
  unfold resolve at resolved
  unfold addressIn?
  split at resolved
  · next label => cases resolved; exact ⟨by rw [label]; rfl, fun _ _ => id⟩
  · next label =>
    split at resolved
    · next fixed => cases resolved; exact ⟨by rw [label, fixed]; rfl, fun _ _ => id⟩
    · next fixed =>
      split at resolved
      · next found => cases resolved; exact ⟨by rw [label, fixed, found]; rfl, fun _ _ => id⟩
      · next fresh =>
        dsimp only at resolved
        split at resolved
        · cases resolved
          refine ⟨by rw [label, fixed, Table.get?_insert, beq_self_eq_true]; rfl, ?_⟩
          intro known cell found
          have differ : name ≠ known := by
            rintro rfl
            rw [fresh] at found
            cases found
          rw [Table.get?_insert, beq_eq_false_iff_ne.2 differ]
          exact found
        · cases resolved

/-- The second pass appends the linked statements, and no variable loses its cell. Symbols are read
in the final tables, whenever they were resolved. -/
theorem map_link?_of_instrsFrom {labels vars later : Table String Nat} {instrs final : Array Instr}
    {program : Program} (assembled : instrsFrom labels vars instrs program = .ok (final, later)) :
    final.toList.map some = instrs.toList.map some ++
        (program.filter Statement.isInstruction).map (Statement.link? (addressIn? labels later)) ∧
      ∀ known cell, vars.get? known = some cell → later.get? known = some cell := by
  induction program generalizing vars instrs with
  | nil =>
    cases assembled
    exact ⟨(List.append_nil _).symm, fun _ _ => id⟩
  | cons statement rest ih =>
    cases statement with
    | load operand =>
      cases operand with
      | value n =>
        rw [instrsFrom] at assembled
        rcases ih assembled with ⟨linked, kept⟩
        refine ⟨?_, kept⟩
        rw [linked, List.filter_cons_of_pos rfl, Array.toList_push]
        simp [Statement.link?]
      | symbol name =>
        rw [instrsFrom] at assembled
        split at assembled
        -- the only step that changes the table: what it resolved is still the same at the end
        · next address middle resolved =>
          rcases addressIn?_of_resolve resolved with ⟨known, keptFirst⟩
          rcases ih assembled with ⟨linked, keptLater⟩
          refine ⟨?_, fun _ _ found => keptLater _ _ (keptFirst _ _ found)⟩
          rw [linked, List.filter_cons_of_pos rfl, Array.toList_push]
          simp [Statement.link?, addressIn?_mono keptLater known]
        · cases assembled
    | compute dest comp jump =>
      rw [instrsFrom] at assembled
      rcases ih assembled with ⟨linked, kept⟩
      refine ⟨?_, kept⟩
      rw [linked, List.filter_cons_of_pos rfl, Array.toList_push]
      simp [Statement.link?]
    | label name => exact ih assembled
    | comment text => exact ih assembled

end Program

end Assembly

/-! ## Assembled programs -/

namespace Rom

/-- The parts of a successful assembly. -/
theorem assemble_eq_ok {program : Program} {rom : Rom} (assembled : assemble program = .ok rom) :
    Program.labels program = .ok rom.labels ∧ program.wordCount ≤ MemoryMap.romSize ∧
      program.instrsFrom rom.labels {} #[] = .ok (rom.instrs, rom.vars) := by
  unfold assemble at assembled
  split at assembled
  · cases assembled
  · next labels collected =>
    split at assembled
    · cases assembled
    · next fits =>
      split at assembled
      · cases assembled
      · next instrs vars linked =>
        cases assembled
        exact ⟨collected, Nat.le_of_not_lt fits, linked⟩

/-- The instruction memory holds the linked statements, one after the other, and nothing else. -/
theorem map_link?_of_assemble {program : Program} {rom : Rom}
    (assembled : assemble program = .ok rom) :
    rom.instrs.toList.map some =
      (program.filter Statement.isInstruction).map (Statement.link? rom.addressOf?) :=
  (Program.map_link?_of_instrsFrom (assemble_eq_ok assembled).2.2).1

/-- A program takes up as many words as it has statements that are instructions. -/
theorem size_of_assemble {program : Program} {rom : Rom} (assembled : assemble program = .ok rom) :
    rom.size = program.wordCount := by
  have lengths := congrArg List.length (map_link?_of_assemble assembled)
  rw [List.length_map, List.length_map, Array.length_toList] at lengths
  rw [size, lengths, Program.wordCount, List.countP_eq_length_filter]

theorem size_le_of_assemble {program : Program} {rom : Rom}
    (assembled : assemble program = .ok rom) : rom.size ≤ MemoryMap.romSize :=
  size_of_assemble assembled ▸ (assemble_eq_ok assembled).2.1

/-- Every label of an assembled program is defined by one of its statements. -/
theorem mem_of_label? {program : Program} {rom : Rom} (assembled : assemble program = .ok rom)
    {name : String} {address : Nat} (found : rom.label? name = some address) :
    .label name ∈ program := by
  rcases Program.mem_of_labelsFrom (assemble_eq_ok assembled).1 found with initially | member
  · have unknown : ({} : Table String Nat).get? name = none := Table.get?_empty name
    rw [unknown] at initially
    cases initially
  · exact member

/-! ## Pieces of a program -/

/-- Whether a statement stands at an address of the instruction memory. -/
def HoldsAt (rom : Rom) (address : Nat) : Statement → Prop
  | .label name => rom.label? name = some address
  | .comment _ => True
  | statement =>
    ∃ instr, statement.link? rom.addressOf? = some instr ∧ rom.get? address = some instr

/-- Whether a piece of a program stands at an address: its instructions follow one another from
there on, and its labels mark the places where they stand. -/
def Placed (rom : Rom) : Nat → Program → Prop
  | _, [] => True
  | address, statement :: rest =>
    rom.HoldsAt address statement ∧ rom.Placed (address + statement.words) rest

theorem placed_cons {rom : Rom} {address : Nat} {statement : Statement} {rest : Program} :
    rom.Placed address (statement :: rest) ↔
      rom.HoldsAt address statement ∧ rom.Placed (address + statement.words) rest := Iff.rfl

theorem placed_append {rom : Rom} {address : Nat} {front back : Program} :
    rom.Placed address (front ++ back) ↔
      rom.Placed address front ∧ rom.Placed (address + front.wordCount) back := by
  induction front generalizing address with
  | nil => simp [Placed]
  | cons statement front ih =>
    rw [List.cons_append, placed_cons, placed_cons, ih, Program.wordCount_cons, Nat.add_assoc,
      and_assoc]

/-- Every instruction of a piece that stands somewhere is linked. -/
theorem exists_link?_of_placed {rom : Rom} {address : Nat} {code : Program} {operand : Operand}
    (placed : rom.Placed address code) (member : .load operand ∈ code) :
    ∃ instr, (Statement.load operand).link? rom.addressOf? = some instr := by
  rcases List.append_of_mem member with ⟨front, back, rfl⟩
  rw [placed_append, placed_cons] at placed
  rcases placed with ⟨_, ⟨instr, linked, _⟩, _⟩
  exact ⟨instr, linked⟩

/-- The instruction of a statement is behind those of the statements before it. -/
theorem get?_of_assemble {program front back : Program} {statement : Statement} {rom : Rom}
    (assembled : assemble program = .ok rom) (split : program = front ++ statement :: back)
    (isInstruction : statement.isInstruction = true) :
    ∃ instr, statement.link? rom.addressOf? = some instr ∧
      rom.get? front.wordCount = some instr := by
  have linked := congrArg (·[front.wordCount]?) (map_link?_of_assemble assembled)
  have place : front.wordCount = (front.filter Statement.isInstruction).length :=
    List.countP_eq_length_filter
  subst split
  rw [List.filter_append, List.filter_cons_of_pos isInstruction, List.map_append, place] at linked
  simp only [List.getElem?_map, Array.getElem?_toList] at linked
  rw [List.getElem?_append_right (Nat.le_of_eq (List.length_map _))] at linked
  simp only [List.length_map, Nat.sub_self, List.map_cons, List.getElem?_cons_zero,
    Option.map_eq_some_iff] at linked
  rcases linked with ⟨instr, fetched, same⟩
  exact ⟨instr, same.symm, by rw [place]; exact fetched⟩

theorem holdsAt_of_assemble {program front back : Program} {statement : Statement} {rom : Rom}
    (assembled : assemble program = .ok rom) (split : program = front ++ statement :: back) :
    rom.HoldsAt front.wordCount statement := by
  cases statement with
  | label name =>
    have collected := (assemble_eq_ok assembled).1
    rw [split] at collected
    have address := Program.get?_label_of_labelsFrom collected
    rwa [Nat.zero_add] at address
  | comment text => trivial
  | load operand => exact get?_of_assemble assembled split rfl
  | compute dest comp jump => exact get?_of_assemble assembled split rfl

/-- An assembled program stands at address zero. -/
theorem placed_of_assemble {program : Program} {rom : Rom}
    (assembled : assemble program = .ok rom) : rom.Placed 0 program := by
  suffices behind : ∀ front back, program = front ++ back → rom.Placed front.wordCount back from
    behind [] program rfl
  intro front back split
  induction back generalizing front with
  | nil => trivial
  | cons statement back ih =>
    refine ⟨holdsAt_of_assemble assembled split, ?_⟩
    have later := ih (front ++ [statement]) (by rw [split, List.append_assoc]; rfl)
    rwa [Program.wordCount_append, Program.wordCount_cons, Program.wordCount_nil] at later

end Rom

end Hack
