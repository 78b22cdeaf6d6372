import Hack.Proofs.Rom.Symbols

/-!
Programs with other names for their labels and symbols.

A program is the same under new names that differ from the old ones only for names that it neither
defines nor loads (`Program.rename_eq_self`).
-/

namespace Hack.Assembly

/-- The statement with a new name for its label or its symbol. -/
def Statement.rename (f : String → String) : Statement → Statement
  | .load (.symbol name) => .load (.symbol (f name))
  | .label name => .label (f name)
  | .load (.value n) => .load (.value n)
  | .compute dest comp jump => .compute dest comp jump
  | .comment text => .comment text

namespace Program

/-- The program with new names for its labels and symbols. -/
def rename (f : String → String) (program : Program) : Program :=
  program.map (Statement.rename f)

theorem rename_eq_self {f : String → String} {program : Program}
    (labels : ∀ name ∈ program.labelNames, f name = name)
    (symbols : ∀ name ∈ program.symbolNames, f name = name) : program.rename f = program := by
  have same : program.map (Statement.rename f) = program.map id := by
    apply List.map_congr_left
    intro statement member
    show statement.rename f = statement
    cases statement with
    | load operand =>
      cases operand with
      | value n => rfl
      | symbol name => rw [Statement.rename, symbols name (mem_symbolNames.2 member)]
    | compute dest comp jump => rfl
    | label name => rw [Statement.rename, labels name (mem_labelNames.2 member)]
    | comment text => rfl
  rw [rename, same, List.map_id]

end Program

end Hack.Assembly
