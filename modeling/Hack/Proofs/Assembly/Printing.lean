import Hack.Assembly.Printer
import Hack.Proofs.Assembly.Grammar
import Hack.Proofs.Text.Lines

/-!
Reading what was printed.

A statement is well-formed if its value fits a load and its name is a symbol. The text of such a
statement spells it (`spells_text`). So it has neither blanks nor slashes, is one line of which
nothing is dropped (`codeOf_of_isCode`), and is read back (`readLine_text`). No other statement is
ever read (`Spells.isWellFormed`).
-/

namespace Hack.Assembly

/-- Whether the operand has a text that can be read. -/
def Operand.isWellFormed : Operand → Bool
  | .value n => decide (n.toNat ≤ Word.maxLiteral)
  | .symbol name => isSymbol name

/-- Whether the statement has a text that can be read. -/
def Statement.isWellFormed : Statement → Bool
  | .load operand => operand.isWellFormed
  | .compute .. => true
  | .label name => isSymbol name
  | .comment _ => false

/-- Whether all statements of a program have texts that can be read. -/
def Program.isWellFormed (program : Program) : Bool := program.all Statement.isWellFormed

/-- What is spelled has a text that can be read. -/
theorem Spells.isWellFormed {s : List Char} {statement : Statement} (spells : Spells s statement) :
    statement.isWellFormed = true := by
  cases spells with
  | load operand =>
    cases operand with
    | value _ fits => exact decide_eq_true fits
    | symbol symbol => exact symbol
  | label symbol => exact symbol
  | compute _ => rfl

/-! ## Lines of code -/

theorem isLine_of_isCode {line : List Char} (code : isCode line = true) : Text.IsLine line := by
  have chars := List.all_eq_true.1 code
  constructor
  · intro member
    exact absurd (chars _ member) (by decide)
  · intro last
    exact absurd (chars _ (List.mem_of_getLast? last)) (by decide)

/-- Nothing is dropped from a text of characters that count. -/
theorem codeOf_of_isCode {line : String} (code : isCode line.toList = true) :
    codeOf line = line.toList := by
  have chars := List.all_eq_true.1 code
  have noSlash : '/' ∉ line.toList := fun member => absurd (chars _ member) (by decide)
  rw [codeOf, Text.cutComment_of_not_mem noSlash]
  refine List.filter_eq_self.2 fun c member => ?_
  exact (Bool.and_eq_true_iff.1 (chars c member)).1

/-! ## Statements -/

theorem spellsBranch_text (comp : Comp) (jump : Jump) :
    SpellsBranch (comp.text.toList ++ if jump = .never then [] else ';' :: jump.text.toList)
      comp jump := by
  have field : comp.Spelling comp.text := Comp.ofText?_eq_some_iff.1 (Comp.ofText?_text comp)
  split
  · next never =>
    rw [List.append_nil, never]
    exact .plain field
  · next branches => exact .branch field (Jump.ofText?_eq_some_iff.1 (Jump.ofText?_text branches))

theorem spellsCompute_text (dest : Dest) (comp : Comp) (jump : Jump) :
    SpellsCompute (Statement.compute dest comp jump).text.toList dest comp jump := by
  have branch := spellsBranch_text comp jump
  have places : dest.Spelling dest.text := Dest.ofText?_eq_some_iff.1 (Dest.ofText?_text dest)
  have letters : (Statement.compute dest comp jump).text.toList =
      (if dest = .none then [] else dest.text.toList ++ ['=']) ++
        (comp.text.toList ++ if jump = .never then [] else ';' :: jump.text.toList) := by
    rw [Statement.text, String.toList_append, String.toList_append, List.append_assoc]
    split <;> split <;> simp
  rw [letters]
  split
  · next none =>
    rw [none]
    exact .plain branch
  · rw [List.append_assoc]
    exact .store places branch

theorem spellsOperand_text {operand : Operand} (wellFormed : operand.isWellFormed = true) :
    SpellsOperand operand.text.toList operand := by
  cases operand with
  | value n =>
    rw [Operand.text, Nat.toString_eq_repr, Nat.toList_repr]
    exact .value ⟨0, rfl⟩ (of_decide_eq_true wellFormed)
  | symbol name => exact .symbol wellFormed

/-- The text of a well-formed statement spells it. -/
theorem spells_text {statement : Statement} (wellFormed : statement.isWellFormed = true) :
    Spells statement.text.toList statement := by
  cases statement with
  | load operand =>
    rw [Statement.text, String.toList_append]
    exact .load (spellsOperand_text wellFormed)
  | compute dest comp jump => exact .compute (spellsCompute_text dest comp jump)
  | label name =>
    rw [Statement.text, String.toList_append, String.toList_append]
    exact .label wellFormed
  | comment text => cases wellFormed

theorem readCode_text {statement : Statement} (wellFormed : statement.isWellFormed = true) :
    isCode statement.text.toList = true ∧
      readCode statement.text.toList = .ok (some statement) := by
  have spells := spells_text wellFormed
  exact ⟨spells.isCode, readCode_eq_some_iff.2 spells⟩

/-- **A well-formed statement is read back.** Its text is one line, too. -/
theorem readLine_text {statement : Statement} (wellFormed : statement.isWellFormed = true) :
    Text.IsLine statement.text.toList ∧ readLine statement.text = .ok (some statement) := by
  obtain ⟨code, read⟩ := readCode_text wellFormed
  refine ⟨isLine_of_isCode code, ?_⟩
  rw [readLine, codeOf_of_isCode code]
  exact read

/-- **Printing and reading are inverse exactly on the well-formed statements,** and only these are
ever read; so what was read and printed is read again, and its text does not change any more. -/
theorem readLine_text_iff :
    (∀ statement : Statement,
      readLine statement.text = .ok (some statement) ↔ statement.isWellFormed = true) ∧
    (∀ line statement, readLine line = .ok (some statement) →
      statement.isWellFormed = true ∧ readLine statement.text = .ok (some statement) ∧
        ∀ again, readLine statement.text = .ok (some again) → again.text = statement.text) := by
  have image {line : String} {statement : Statement}
      (read : readLine line = .ok (some statement)) : statement.isWellFormed = true :=
    (readCode_eq_some_iff.1 read).isWellFormed
  refine ⟨fun statement => ⟨image, fun wellFormed => (readLine_text wellFormed).2⟩, ?_⟩
  intro line statement read
  have printed := (readLine_text (image read)).2
  refine ⟨image read, printed, fun again read => ?_⟩
  rw [printed] at read
  cases read
  rfl

end Hack.Assembly
