import Mathlib.Logic.Equiv.Basic
import Hack.Proofs.Assembly.Renaming
import Hack.Proofs.Rom.Resolution

/-!
The assembler does not look at names.

Its tables are searched for names and never ordered by them. So if new names keep different names
apart and leave the predefined ones alone, the two passes over the renamed program go side by side
with those over the program itself: their tables hold the same addresses under the new names
(`Table.Renamed`), and they fail together (`Agrees`). Each pass is one induction over the program;
`resolve_rename` is the step of the second pass.
-/

namespace Hack

open Assembly

/-- An error about a name, with a new name for it. -/
def AssembleError.rename (f : String → String) : AssembleError → AssembleError
  | .duplicateLabel name => .duplicateLabel (f name)
  | .variableOverflow name => .variableOverflow (f name)
  | .badLine place cause => .badLine place cause
  | .romOverflow => .romOverflow

/-- Two attempts agree up to names: both succeed, with related results, or they fail with the same
error. -/
inductive Agrees (f : String → String) {α : Type} (related : α → α → Prop) :
    Except AssembleError α → Except AssembleError α → Prop
  | ok {result result' : α} : related result result' → Agrees f related (.ok result) (.ok result')
  | error (error : AssembleError) : Agrees f related (.error error) (.error (error.rename f))

/-- The pairs of a table with new names. -/
def renamePairs (f : String → String) (pairs : List (String × Nat)) : List (String × Nat) :=
  pairs.map fun pair => (f pair.1, pair.2)

theorem lookup_renamePairs {f : String → String} (injective : Function.Injective f)
    (pairs : List (String × Nat)) (name : String) :
    (renamePairs f pairs).lookup (f name) = pairs.lookup name := by
  induction pairs with
  | nil => rfl
  | cons pair pairs ih =>
    have same : (f name == f pair.1) = (name == pair.1) := by
      rw [Bool.eq_iff_iff, beq_iff_eq, beq_iff_eq, injective.eq_iff]
    rw [renamePairs, List.map_cons, List.lookup_cons, List.lookup_cons, same, ← ih, renamePairs]

/-- Names keep their fixed meaning if the predefined ones keep their name. -/
theorem predefined?_rename {f : String → String} (injective : Function.Injective f)
    (fixed : ∀ entry ∈ predefinedSymbols, f entry.1 = entry.1) (name : String) :
    predefined? (f name) = predefined? name := by
  have kept : renamePairs f predefinedSymbols = predefinedSymbols := by
    have same : predefinedSymbols.map (fun entry => (f entry.1, entry.2)) =
        predefinedSymbols.map id :=
      List.map_congr_left fun entry member => by rw [fixed entry member]; rfl
    rw [renamePairs, same, List.map_id]
  have found := lookup_renamePairs injective predefinedSymbols name
  rw [kept] at found
  exact found

/-! ## Tables -/

/-- A table holds the pairs of another one under new names, in the same order. -/
def Table.Renamed (f : String → String) (table renamed : Table String Nat) : Prop :=
  renamed.toList = renamePairs f table.toList

namespace Table.Renamed

variable {f : String → String} {table renamed : Table String Nat}

theorem empty : Renamed f {} {} := rfl

theorem keys (same : Renamed f table renamed) :
    renamed.keys.toList = table.keys.toList.map f := by
  rw [← map_fst_toList, same, ← map_fst_toList, renamePairs, List.map_map, List.map_map]
  rfl

theorem size (same : Renamed f table renamed) : renamed.size = table.size := by
  have lengths := congrArg List.length same.keys
  rwa [List.length_map, Array.length_toList, Array.length_toList] at lengths

variable (injective : Function.Injective f)

include injective

theorem get? (same : Renamed f table renamed) (name : String) :
    renamed.get? (f name) = table.get? name := by
  rw [get?_eq_lookup, same, lookup_renamePairs injective, get?_eq_lookup]

theorem contains (same : Renamed f table renamed) (name : String) :
    renamed.contains (f name) = table.contains name := by
  rw [← isSome_get?, same.get? injective, isSome_get?]

/-- A new name goes to the end of both tables. -/
theorem insert (same : Renamed f table renamed) {name : String} (new : table.get? name = none)
    (address : Nat) :
    Renamed f (table.insert name address) (renamed.insert (f name) address) := by
  have new' : renamed.get? (f name) = none := (same.get? injective name).trans new
  unfold Renamed
  rw [toList_insert new, toList_insert new', same, renamePairs, renamePairs, List.map_append]
  rfl

end Table.Renamed

namespace Assembly

/-! ## Programs -/

theorem Statement.isInstruction_rename (f : String → String) (statement : Statement) :
    (statement.rename f).isInstruction = statement.isInstruction := by
  cases statement with
  | load operand => cases operand <;> rfl
  | compute dest comp jump => rfl
  | label name => rfl
  | comment text => rfl

namespace Program

theorem rename_cons (f : String → String) (statement : Statement) (rest : Program) :
    rename f (statement :: rest) = statement.rename f :: rename f rest := rfl

theorem wordCount_rename (f : String → String) (program : Program) :
    (program.rename f).wordCount = program.wordCount := by
  unfold wordCount rename
  rw [List.countP_map]
  exact List.countP_congr fun statement _ => by
    rw [Function.comp_apply, Statement.isInstruction_rename]

section Passes

variable {f : String → String} (injective : Function.Injective f)

include injective

/-! ## The first pass -/

/-- The first pass collects the renamed labels at the same addresses, or it finds the same one
defined twice. -/
theorem labelsFrom_rename {labels labels' : Table String Nat} (same : labels.Renamed f labels')
    (address : Nat) (program : Program) :
    Agrees f (Table.Renamed f) (labelsFrom address labels program)
      (labelsFrom address labels' (program.rename f)) := by
  induction program generalizing address labels labels' with
  | nil => exact .ok same
  | cons statement rest ih =>
    cases statement with
    | label name =>
      rw [rename_cons, Statement.rename, labelsFrom, labelsFrom, same.contains injective]
      split
      · exact .error (.duplicateLabel name)
      · next fresh =>
        rw [← Table.isSome_get?] at fresh
        exact ih (same.insert injective (Option.not_isSome_iff_eq_none.1 fresh) address) address
    | load operand => cases operand <;> exact ih same (address + 1)
    | compute dest comp jump => exact ih same (address + 1)
    | comment text => exact ih same address

theorem labels_rename (program : Program) :
    Agrees f (Table.Renamed f) program.labels (program.rename f).labels :=
  labelsFrom_rename injective .empty 0 program

/-! ## The second pass -/

variable (fixed : ∀ entry ∈ predefinedSymbols, f entry.1 = entry.1)
  {labels labels' vars vars' : Table String Nat}

include fixed

/-- A renamed symbol stands for the same address. If it is a new variable both tables grow by it,
and both are full at the same time. -/
theorem resolve_rename (sameLabels : labels.Renamed f labels') (sameVars : vars.Renamed f vars')
    (name : String) :
    Agrees f (fun result result' => result'.1 = result.1 ∧ result.2.Renamed f result'.2)
      (resolve labels vars name) (resolve labels' vars' (f name)) := by
  unfold resolve
  rw [sameLabels.get? injective, predefined?_rename injective fixed, sameVars.get? injective,
    sameVars.size]
  split
  · exact .ok ⟨rfl, sameVars⟩
  · split
    · exact .ok ⟨rfl, sameVars⟩
    · split
      · exact .ok ⟨rfl, sameVars⟩
      · next new =>
        dsimp only
        split
        · exact .ok ⟨rfl, sameVars.insert injective new _⟩
        · exact .error (.variableOverflow name)

theorem instrsFrom_rename (sameLabels : labels.Renamed f labels')
    (sameVars : vars.Renamed f vars') (instrs : Array Instr) (program : Program) :
    Agrees f (fun result result' => result'.1 = result.1 ∧ result.2.Renamed f result'.2)
      (instrsFrom labels vars instrs program)
      (instrsFrom labels' vars' instrs (program.rename f)) := by
  induction program generalizing vars vars' instrs with
  | nil => exact .ok ⟨rfl, sameVars⟩
  | cons statement rest ih =>
    cases statement with
    | load operand =>
      cases operand with
      | value n => exact ih sameVars _
      | symbol name =>
        rw [rename_cons, Statement.rename, instrsFrom, instrsFrom]
        have resolved := resolve_rename injective fixed sameLabels sameVars name
        -- from here on the two steps are known through their agreement alone
        generalize resolve labels vars name = result at resolved
        generalize resolve labels' vars' (f name) = result' at resolved
        cases resolved with
        | error error => exact .error error
        | @ok result result' related =>
          obtain ⟨sameAddress, grown⟩ := related
          dsimp only
          rw [sameAddress]
          exact ih grown _
    | compute dest comp jump => exact ih sameVars _
    | label name => exact ih sameVars _
    | comment text => exact ih sameVars _

end Passes

end Program

end Assembly

namespace Rom

/-- An assembled program with new names: the same instructions, and the same labels and variables
under their new names. -/
structure Renamed (f : String → String) (rom renamed : Rom) : Prop where
  instrs : renamed.instrs = rom.instrs
  /-- The labels are listed in the same order, at the same addresses. -/
  labels : renamed.labels.toList = renamePairs f rom.labels.toList
  /-- So are the variables with their cells. -/
  vars : renamed.vars.toList = renamePairs f rom.vars.toList
  label? (name : String) : renamed.label? (f name) = rom.label? name
  cellOf? (name : String) : renamed.cellOf? (f name) = rom.cellOf? name
  variableAt? (address : Nat) : renamed.variableAt? address = (rom.variableAt? address).map f

variable {f : String → String}

theorem Renamed.of_tables (injective : Function.Injective f) {instrs : Array Instr}
    {labels labels' vars vars' : Table String Nat} (sameLabels : labels.Renamed f labels')
    (sameVars : vars.Renamed f vars') :
    Renamed f { instrs, labels, vars } { instrs, labels := labels', vars := vars' } := by
  refine
    { instrs := rfl
      labels := sameLabels
      vars := sameVars
      label? := sameLabels.get? injective
      cellOf? := sameVars.get? injective
      variableAt? := ?_ }
  intro address
  unfold Rom.variableAt?
  dsimp only
  split
  · rfl
  · rw [← Array.getElem?_toList, sameVars.keys, List.getElem?_map, Array.getElem?_toList]

theorem agrees_assemble (injective : Function.Injective f)
    (fixed : ∀ entry ∈ predefinedSymbols, f entry.1 = entry.1) (program : Program) :
    Agrees f (Renamed f) (assemble program) (assemble (program.rename f)) := by
  have first := Program.labels_rename injective program
  unfold assemble
  rw [Program.wordCount_rename]
  generalize program.labels = collected at first
  generalize (program.rename f).labels = collected' at first
  cases first with
  | error error => exact .error error
  | @ok labels labels' sameLabels =>
    dsimp only
    split
    · exact .error .romOverflow
    · have second := Program.instrsFrom_rename injective fixed sameLabels .empty #[] program
      generalize program.instrsFrom labels {} #[] = linked at second
      generalize (program.rename f).instrsFrom labels' {} #[] = linked' at second
      cases second with
      | error error => exact .error error
      | @ok result result' related =>
        obtain ⟨instrs, vars⟩ := result
        obtain ⟨instrs', vars'⟩ := result'
        obtain ⟨rfl, sameVars⟩ := related
        exact .ok (.of_tables injective sameLabels sameVars)

/-- **Assembling does not depend on the names chosen.** New names that keep different names apart
and leave the predefined ones alone give the same instructions, with the labels and the variables at
the same addresses under their new names, or the same error about the new name. -/
theorem assemble_rename (injective : Function.Injective f)
    (fixed : ∀ entry ∈ predefinedSymbols, f entry.1 = entry.1) (program : Program) :
    (∀ rom, assemble program = .ok rom →
      ∃ renamed, assemble (program.rename f) = .ok renamed ∧ Renamed f rom renamed) ∧
    ∀ error, assemble program = .error error →
      assemble (program.rename f) = .error (error.rename f) := by
  have agrees := agrees_assemble injective fixed program
  generalize assemble program = outcome at agrees
  generalize assemble (program.rename f) = outcome' at agrees
  cases agrees with
  | error error =>
    refine ⟨nofun, ?_⟩
    rintro _ ⟨⟩
    rfl
  | ok related =>
    refine ⟨?_, nofun⟩
    rintro _ ⟨⟩
    exact ⟨_, rfl, related⟩

/-- The names of a variable and of a label exchanged. -/
def exchanged : String → String := Equiv.swap "i" "END"

/-- In the program that loads both, the variable gets the cell that it had under its old name, and
the label its address. Defined twice, it is the new name that is reported. -/
theorem assemble_rename_exchanged :
    Function.Injective exchanged ∧ (∀ entry ∈ predefinedSymbols, exchanged entry.1 = entry.1) ∧
    (∃ rom renamed, assemble shadowingProgram = .ok rom ∧
      assemble (shadowingProgram.rename exchanged) = .ok renamed ∧
      renamed.instrs = rom.instrs ∧ renamed.cellOf? "END" = rom.cellOf? "i" ∧
      renamed.label? "i" = rom.label? "END") ∧
    assemble (Program.rename exchanged [.label "i", .label "i"]) =
      .error (.duplicateLabel "END") := by
  have injective : Function.Injective exchanged := Equiv.injective _
  have fixed : ∀ entry ∈ predefinedSymbols, exchanged entry.1 = entry.1 := by decide
  have new : exchanged "i" = "END" ∧ exchanged "END" = "i" := by decide
  have accepted : ∃ rom, assemble shadowingProgram = .ok rom :=
    exists_assemble (by decide) (by decide) (by decide)
  obtain ⟨rom, assembled⟩ := accepted
  obtain ⟨renamed, assembled', same⟩ :=
    (assemble_rename injective fixed shadowingProgram).1 rom assembled
  have cell := same.cellOf? "i"
  have label := same.label? "END"
  rw [new.1] at cell
  rw [new.2] at label
  refine ⟨injective, fixed, ⟨rom, renamed, assembled, assembled', same.instrs, cell, label⟩, ?_⟩
  have repeated : assemble [.label "i", .label "i"] = .error (.duplicateLabel "i") :=
    assemble_of_fault (.duplicateLabel ⟨[.label "i"], [], rfl, by decide, by decide⟩)
  have twice := (assemble_rename injective fixed [.label "i", .label "i"]).2 _ repeated
  rw [AssembleError.rename, new.1] at twice
  exact twice

end Rom

end Hack
