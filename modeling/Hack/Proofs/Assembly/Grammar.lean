import Hack.Assembly.Reader
import Hack.Proofs.Text.Numerals
import Hack.Proofs.Text.Splitting
import Mathlib.Data.List.Basic

/-!
The grammar of assembly lines.

`Spells` relates a text without blanks and comments to the statement that it spells: `@` and an
operand, a symbol in brackets, or the fields of a computation with their marks. The spellings of the
fields are listed, the canonical ones and those with swapped letters. Reading a line finds the
statement that its code spells, if there is one, and fails otherwise (`readLine_by_grammar`); so no
text spells two statements.
-/

namespace Hack

open Assembly Text

/-! ## Fields -/

/-- A text spells a destination: it names the places in an order that is in use. -/
def Dest.Spelling (dest : Dest) (s : String) : Prop :=
  s ∈ ["", "M", "D", "MD", "DM", "A", "AM", "MA", "AD", "DA", "AMD"] ∧
    dest = ⟨s.toList.contains 'A', s.toList.contains 'D', s.toList.contains 'M'⟩

/-- The computations with their spellings. Where both operands are registers of a sum or of a logical
operation, they may be swapped. -/
def Comp.spellings : List (String × Comp) :=
  [("0", .zero), ("1", .one), ("-1", .minusOne), ("D", .d), ("A", .y .a), ("M", .y .m),
   ("!D", .notD), ("!A", .notY .a), ("!M", .notY .m), ("-D", .negD), ("-A", .negY .a),
   ("-M", .negY .m), ("D+1", .dPlusOne), ("A+1", .yPlusOne .a), ("M+1", .yPlusOne .m),
   ("D-1", .dMinusOne), ("A-1", .yMinusOne .a), ("M-1", .yMinusOne .m),
   ("D+A", .dPlusY .a), ("A+D", .dPlusY .a), ("D+M", .dPlusY .m), ("M+D", .dPlusY .m),
   ("D-A", .dMinusY .a), ("D-M", .dMinusY .m), ("A-D", .yMinusD .a), ("M-D", .yMinusD .m),
   ("D&A", .dAndY .a), ("A&D", .dAndY .a), ("D&M", .dAndY .m), ("M&D", .dAndY .m),
   ("D|A", .dOrY .a), ("A|D", .dOrY .a), ("D|M", .dOrY .m), ("M|D", .dOrY .m)]

/-- A text spells a computation. -/
def Comp.Spelling (comp : Comp) (s : String) : Prop := (s, comp) ∈ spellings

/-- The branch conditions with their mnemonics. -/
def Jump.mnemonics : List (String × Jump) :=
  [("JGT", .gt), ("JEQ", .eq), ("JGE", .ge), ("JLT", .lt), ("JNE", .ne), ("JLE", .le),
   ("JMP", .always)]

/-- A text is the mnemonic of a branch condition. -/
def Jump.Spelling (jump : Jump) (s : String) : Prop := (s, jump) ∈ mnemonics

instance (dest : Dest) (s : String) : Decidable (dest.Spelling s) :=
  inferInstanceAs (Decidable (_ ∧ _))

instance (comp : Comp) (s : String) : Decidable (comp.Spelling s) :=
  inferInstanceAs (Decidable (_ ∈ _))

instance (jump : Jump) (s : String) : Decidable (jump.Spelling s) :=
  inferInstanceAs (Decidable (_ ∈ _))

variable {s : String}

theorem Dest.ofText?_eq_some_iff {dest : Dest} : ofText? s = some dest ↔ dest.Spelling s := by
  have canonical : ∀ dest ∈ all, dest.Spelling dest.text := by decide
  have other : ∀ pair ∈ swapped, pair.2.Spelling pair.1 := by decide
  have known : ∀ s ∈ ["", "M", "D", "MD", "DM", "A", "AM", "MA", "AD", "DA", "AMD"],
      ofText? s = some ⟨s.toList.contains 'A', s.toList.contains 'D', s.toList.contains 'M'⟩ := by
    decide
  constructor
  · intro found
    rcases spelling_cases found with same | member
    · rw [same]
      exact canonical dest dest.mem_all
    · exact other _ member
  · intro spelling
    rw [known s spelling.1, spelling.2]

theorem Comp.ofText?_eq_some_iff {comp : Comp} : ofText? s = some comp ↔ comp.Spelling s := by
  have canonical : ∀ comp ∈ all, comp.Spelling comp.text := by decide
  have other : ∀ pair ∈ swapped, pair.2.Spelling pair.1 := by decide
  have known : ∀ pair ∈ spellings, ofText? pair.1 = some pair.2 := by decide
  constructor
  · intro found
    rcases spelling_cases found with same | member
    · rw [same]
      exact canonical comp comp.mem_all
    · exact other _ member
  · exact known (s, comp)

theorem Jump.ofText?_eq_some_iff {jump : Jump} : ofText? s = some jump ↔ jump.Spelling s := by
  have listed : ∀ jump ∈ all, jump ≠ .never → jump.Spelling jump.text := by decide
  have known : ∀ pair ∈ mnemonics, ofText? pair.1 = some pair.2 := by decide
  constructor
  · intro found
    have hit := List.find?_some found
    rw [Bool.and_eq_true, bne_iff_ne, beq_iff_eq] at hit
    rw [← hit.2]
    exact listed jump jump.mem_all hit.1
  · exact known (s, jump)

end Hack

namespace Hack.Assembly

open Text

variable {s : List Char}

/-- A text spells a computation with its branch condition. -/
inductive SpellsBranch : List Char → Comp → Jump → Prop
  | plain {field : String} {comp : Comp} :
    comp.Spelling field → SpellsBranch field.toList comp .never
  | branch {field mnemonic : String} {comp : Comp} {jump : Jump} :
    comp.Spelling field → jump.Spelling mnemonic →
    SpellsBranch (field.toList ++ ';' :: mnemonic.toList) comp jump

/-- A text spells a whole computation statement. -/
inductive SpellsCompute : List Char → Dest → Comp → Jump → Prop
  | plain {s : List Char} {comp : Comp} {jump : Jump} :
    SpellsBranch s comp jump → SpellsCompute s .none comp jump
  | store {places : String} {s : List Char} {dest : Dest} {comp : Comp} {jump : Jump} :
    dest.Spelling places → SpellsBranch s comp jump →
    SpellsCompute (places.toList ++ '=' :: s) dest comp jump

/-- A text spells an operand: a value that fits a load, or a symbol. -/
inductive SpellsOperand : List Char → Operand → Prop
  | value {s : List Char} {n : Word} :
    IsNumeral s n.toNat → n.toNat ≤ 32767 → SpellsOperand s (.value n)
  | symbol {name : String} : isSymbol name = true → SpellsOperand name.toList (.symbol name)

/-- A text without blanks and comments spells a statement. -/
inductive Spells : List Char → Statement → Prop
  | load {s : List Char} {operand : Operand} :
    SpellsOperand s operand → Spells ('@' :: s) (.load operand)
  | label {name : String} :
    isSymbol name = true → Spells ('(' :: (name.toList ++ [')'])) (.label name)
  | compute {s : List Char} {dest : Dest} {comp : Comp} {jump : Jump} :
    SpellsCompute s dest comp jump → Spells s (.compute dest comp jump)

/-! ## Characters that count -/

/-- Whether a character counts wherever it stands on a line: it is neither blank nor a slash. -/
def isCodeChar (c : Char) : Bool := !Text.isBlank c && c != '/'

/-- Whether a text is made of characters that count. -/
def isCode (s : List Char) : Bool := s.all isCodeChar

theorem isCode_append {s t : List Char} : isCode (s ++ t) = (isCode s && isCode t) :=
  List.all_append

theorem isCodeChar_of_isAlphanum {c : Char} (alphanum : c.isAlphanum = true) :
    isCodeChar c = true := by
  have noSlash : c ≠ '/' := by
    rintro rfl
    cases alphanum
  rw [isCodeChar, isBlank_of_isAlphanum alphanum, bne_iff_ne.2 noSlash]
  rfl

theorem isCodeChar_of_isSymbolChar {c : Char} (symbol : isSymbolChar c = true) :
    isCodeChar c = true := by
  simp only [isSymbolChar, Bool.or_eq_true, beq_iff_eq] at symbol
  rcases symbol with (((alphanum | rfl) | rfl) | rfl) | rfl
  · exact isCodeChar_of_isAlphanum alphanum
  all_goals decide

theorem isCode_of_symbolChars {s : List Char} (chars : s.all isSymbolChar = true) :
    isCode s = true := by
  rw [List.all_eq_true] at chars
  exact List.all_eq_true.2 fun c member => isCodeChar_of_isSymbolChar (chars c member)

theorem isCode_of_isSymbol {name : String} (symbol : isSymbol name = true) :
    isCode name.toList = true := isCode_of_symbolChars (all_of_isSymbolChars symbol)

theorem isWord_of_isCode {s : List Char} (some : s ≠ []) (code : isCode s = true) : IsWord s := by
  refine ⟨some, fun c member => ?_⟩
  have counts := List.all_eq_true.1 code c member
  rw [isCodeChar, Bool.and_eq_true, Bool.not_eq_true'] at counts
  exact counts.1

/-! ## Computations -/

/-- Whether a character can stand in a field of a computation: it counts, and it neither begins a
statement of another kind nor parts two fields. -/
def isFieldChar (c : Char) : Bool := isCodeChar c && !(['@', '(', '=', ';'].contains c)

/-- Whether a text can be a field of a computation. -/
def isField (s : List Char) : Bool := s.all isFieldChar

theorem isFieldChar_of_mem {s : List Char} (field : isField s = true) {c : Char} (member : c ∈ s) :
    isFieldChar c = true := List.all_eq_true.1 field c member

theorem not_mem_of_isField {s : List Char} (field : isField s = true) {mark : Char}
    (isMark : isFieldChar mark = false) : mark ∉ s := by
  intro member
  rw [isFieldChar_of_mem field member] at isMark
  cases isMark

theorem isField_of_comp {comp : Comp} {field : String} (spelling : comp.Spelling field) :
    isField field.toList = true := by
  have known : ∀ pair ∈ Comp.spellings, isField pair.1.toList = true := by decide
  exact known (field, comp) spelling

theorem isField_of_jump {jump : Jump} {field : String} (spelling : jump.Spelling field) :
    isField field.toList = true := by
  have known : ∀ pair ∈ Jump.mnemonics, isField pair.1.toList = true := by decide
  exact known (field, jump) spelling

theorem isField_of_dest {dest : Dest} {field : String} (spelling : dest.Spelling field) :
    isField field.toList = true := by
  have known : ∀ s ∈ ["", "M", "D", "MD", "DM", "A", "AM", "MA", "AD", "DA", "AMD"],
      isField s.toList = true := by
    decide
  exact known field spelling.1

theorem SpellsBranch.mem_cases {comp : Comp} {jump : Jump} (spells : SpellsBranch s comp jump)
    {c : Char} (member : c ∈ s) : isFieldChar c = true ∨ c = ';' := by
  cases spells with
  | plain comp => exact Or.inl (isFieldChar_of_mem (isField_of_comp comp) member)
  | branch comp jump =>
    rcases List.mem_append.1 member with inComp | behind
    · exact Or.inl (isFieldChar_of_mem (isField_of_comp comp) inComp)
    · rcases List.mem_cons.1 behind with mark | inJump
      · exact Or.inr mark
      · exact Or.inl (isFieldChar_of_mem (isField_of_jump jump) inJump)

theorem SpellsCompute.mem_cases {dest : Dest} {comp : Comp} {jump : Jump}
    (spells : SpellsCompute s dest comp jump) {c : Char} (member : c ∈ s) :
    isFieldChar c = true ∨ c = ';' ∨ c = '=' := by
  cases spells with
  | plain branch => exact (branch.mem_cases member).imp_right Or.inl
  | store places branch =>
    rcases List.mem_append.1 member with inDest | behind
    · exact Or.inl (isFieldChar_of_mem (isField_of_dest places) inDest)
    · rcases List.mem_cons.1 behind with mark | inBranch
      · exact Or.inr (Or.inr mark)
      · exact (branch.mem_cases inBranch).imp_right Or.inl

/-- What follows a reader runs on what it has read. -/
theorem bind_eq_ok_iff {ε α β : Type} {first : Except ε α} {next : α → Except ε β} {last : β} :
    (first >>= next) = .ok last ↔ ∃ middle, first = .ok middle ∧ next middle = .ok last := by
  cases first with
  | error cause => exact ⟨nofun, fun ⟨_, read, _⟩ => nomatch read⟩
  | ok middle => simp [bind, Except.bind]

theorem readComp_eq_ok_iff {field : String} {comp : Comp} :
    readComp field = .ok comp ↔ comp.Spelling field := by
  rw [← Comp.ofText?_eq_some_iff, readComp]
  cases Comp.ofText? field <;> simp

theorem readDest_eq_ok_iff {field : String} {dest : Dest} :
    readDest field = .ok dest ↔ dest.Spelling field := by
  rw [← Dest.ofText?_eq_some_iff, readDest]
  cases Dest.ofText? field <;> simp

theorem readJump_eq_ok_iff {field : String} {jump : Jump} :
    readJump field = .ok jump ↔ jump.Spelling field := by
  rw [← Jump.ofText?_eq_some_iff, readJump]
  cases Jump.ofText? field <;> simp

theorem readBranch_eq_ok_iff {comp : Comp} {jump : Jump} :
    readBranch s = .ok (comp, jump) ↔ SpellsBranch s comp jump := by
  constructor
  · intro read
    unfold readBranch at read
    split at read
    · next field mnemonic cut =>
      obtain ⟨comp, readsComp, read⟩ := bind_eq_ok_iff.1 read
      obtain ⟨jump, readsJump, read⟩ := bind_eq_ok_iff.1 read
      cases read
      have spells := SpellsBranch.branch (readComp_eq_ok_iff.1 readsComp)
        (readJump_eq_ok_iff.1 readsJump)
      rwa [String.toList_ofList, String.toList_ofList, ← (cutAt?_eq_some cut).1] at spells
    · obtain ⟨comp, readsComp, read⟩ := bind_eq_ok_iff.1 read
      cases read
      have spells := SpellsBranch.plain (readComp_eq_ok_iff.1 readsComp)
      rwa [String.toList_ofList] at spells
  · intro spells
    cases spells with
    | plain comp =>
      have noMark := not_mem_of_isField (isField_of_comp comp) (by decide : isFieldChar ';' = false)
      simp only [readBranch, cutAt?_eq_none_iff.2 noMark, String.ofList_toList,
        readComp_eq_ok_iff.2 comp]
      rfl
    | branch comp jump =>
      have noMark := not_mem_of_isField (isField_of_comp comp) (by decide : isFieldChar ';' = false)
      simp only [readBranch, cutAt?_append noMark, String.ofList_toList,
        readComp_eq_ok_iff.2 comp, readJump_eq_ok_iff.2 jump]
      rfl

theorem readCompute_eq_ok_iff {statement : Statement} :
    readCompute s = .ok statement ↔
      ∃ dest comp jump, statement = .compute dest comp jump ∧ SpellsCompute s dest comp jump := by
  constructor
  · intro read
    unfold readCompute at read
    split at read
    · next places rest cut =>
      obtain ⟨dest, readsDest, read⟩ := bind_eq_ok_iff.1 read
      obtain ⟨⟨comp, jump⟩, readsBranch, read⟩ := bind_eq_ok_iff.1 read
      cases read
      have spells := SpellsCompute.store (readDest_eq_ok_iff.1 readsDest)
        (readBranch_eq_ok_iff.1 readsBranch)
      rw [String.toList_ofList, ← (cutAt?_eq_some cut).1] at spells
      exact ⟨dest, comp, jump, rfl, spells⟩
    · obtain ⟨⟨comp, jump⟩, readsBranch, read⟩ := bind_eq_ok_iff.1 read
      cases read
      exact ⟨.none, comp, jump, rfl, .plain (readBranch_eq_ok_iff.1 readsBranch)⟩
  · intro spelled
    obtain ⟨dest, comp, jump, same, spells⟩ := spelled
    rw [same]
    cases spells with
    | plain branch =>
      have noMark : '=' ∉ s := fun member => absurd (branch.mem_cases member) (by decide)
      simp only [readCompute, cutAt?_eq_none_iff.2 noMark, readBranch_eq_ok_iff.2 branch]
      rfl
    | store places branch =>
      have noMark := not_mem_of_isField (isField_of_dest places)
        (by decide : isFieldChar '=' = false)
      simp only [readCompute, cutAt?_append noMark, String.ofList_toList,
        readDest_eq_ok_iff.2 places, readBranch_eq_ok_iff.2 branch]
      rfl

/-! ## Operands and labels -/

theorem readOperand_symbol {name : String} (symbol : isSymbol name = true) :
    readOperand name.toList = .ok (.symbol name) := by
  unfold isSymbol at symbol
  have nonempty : name.toList.isEmpty = false := by
    cases letters : name.toList with
    | nil =>
      rw [letters] at symbol
      cases symbol
    | cons c rest => rfl
  have noNumber : Text.allDigits name.toList = false := by
    cases letters : name.toList with
    | nil =>
      rw [letters] at symbol
      cases symbol
    | cons c rest =>
      rw [letters, isSymbolChars, Bool.and_eq_true_iff, Bool.not_eq_true'] at symbol
      rw [Text.allDigits, List.all_cons, symbol.1, Bool.false_and]
  rw [readOperand, nonempty, noNumber, symbol, String.ofList_toList]
  rfl

theorem readOperand_eq_ok_iff {operand : Operand} :
    readOperand s = .ok operand ↔ SpellsOperand s operand := by
  constructor
  · intro read
    unfold readOperand at read
    split at read
    · cases read
    · split at read
      · split at read
        · next n found =>
          cases read
          obtain ⟨numeral, fits⟩ := readDecimal?_eq_some_iff.1 found
          have same : (BitVec.ofNat 16 n).toNat = n :=
            Nat.mod_eq_of_lt (Nat.lt_of_le_of_lt fits (by decide))
          refine .value ?_ ?_
          · rwa [same]
          · rwa [same]
        · cases read
      · split at read
        · next symbol =>
          cases read
          have named : isSymbol (String.ofList s) = true := by
            rwa [isSymbol, String.toList_ofList]
          have spells := SpellsOperand.symbol named
          rwa [String.toList_ofList] at spells
        · cases read
  · intro spells
    cases spells with
    | @value _ n numeral fits =>
      have same : BitVec.ofNat 16 n.toNat = n :=
        (BitVec.ofNat_toNat 16 n).trans (BitVec.setWidth_eq n)
      have found : readDecimal? Word.maxLiteral s = some n.toNat :=
        readDecimal?_eq_some_iff.2 ⟨numeral, fits⟩
      have some : s.isEmpty = false := List.isEmpty_eq_false_iff.2 numeral.ne_nil
      simp only [readOperand, some, numeral.allDigits, found, same, if_true, Bool.false_eq_true,
        if_false]
    | symbol symbol => exact readOperand_symbol symbol

theorem bracketed?_eq_some_iff {inner name : List Char} :
    bracketed? inner = some name ↔ inner = name ++ [')'] ∧ isSymbolChars name = true := by
  constructor
  · intro found
    unfold bracketed? at found
    split at found
    · next both =>
      cases found
      rw [Bool.and_eq_true, decide_eq_true_iff] at both
      exact ⟨(List.dropLast_append_getLast? ')' both.1).symm, both.2⟩
    · cases found
  · intro both
    rw [both.1, bracketed?, List.getLast?_concat, List.dropLast_concat, both.2]
    rfl

/-! ## Statements -/

/-- What is neither a load nor a label is read as a computation. -/
theorem readCode_of_readCompute {code : List Char} {statement : Statement}
    (read : readCompute code = .ok statement) (noLoad : '@' ∉ code) (noLabel : '(' ∉ code) :
    readCode code = .ok (some statement) := by
  unfold readCode
  split
  · have failed : readCompute [] = .error (.unknownComp "") := rfl
    rw [failed] at read
    cases read
  · exact absurd List.mem_cons_self noLoad
  · exact absurd List.mem_cons_self noLabel
  · rw [read]
    rfl

/-- **The code of a line is read as the statement that it spells.** -/
theorem readCode_eq_some_iff {statement : Statement} :
    readCode s = .ok (some statement) ↔ Spells s statement := by
  constructor
  · intro read
    unfold readCode at read
    split at read
    · cases read
    · obtain ⟨operand, readsOperand, read⟩ := bind_eq_ok_iff.1 read
      cases read
      exact .load (readOperand_eq_ok_iff.1 readsOperand)
    · split at read
      · next name found =>
        cases read
        obtain ⟨split, symbol⟩ := bracketed?_eq_some_iff.1 found
        have named : isSymbol (String.ofList name) = true := by
          rwa [isSymbol, String.toList_ofList]
        have spells := Spells.label named
        rwa [String.toList_ofList, ← split] at spells
      · cases read
    · obtain ⟨found, readsCompute, read⟩ := bind_eq_ok_iff.1 read
      cases read
      obtain ⟨dest, comp, jump, rfl, spells⟩ := readCompute_eq_ok_iff.1 readsCompute
      exact .compute spells
  · intro spells
    cases spells with
    | load operand =>
      exact bind_eq_ok_iff.2 ⟨_, readOperand_eq_ok_iff.2 operand, rfl⟩
    | @label name symbol =>
      have found : bracketed? (name.toList ++ [')']) = some name.toList :=
        bracketed?_eq_some_iff.2 ⟨rfl, symbol⟩
      rw [readCode, found]
      dsimp only
      rw [String.ofList_toList]
    | @compute _ dest comp jump spells =>
      refine readCode_of_readCompute (readCompute_eq_ok_iff.2 ⟨dest, comp, jump, rfl, spells⟩) ?_ ?_
      · exact fun member => absurd (spells.mem_cases member) (by decide)
      · exact fun member => absurd (spells.mem_cases member) (by decide)

theorem readCode_eq_none_iff : readCode s = .ok none ↔ s = [] := by
  constructor
  · intro read
    unfold readCode at read
    split at read
    · rfl
    · obtain ⟨_, _, read⟩ := bind_eq_ok_iff.1 read
      cases read
    · split at read <;> cases read
    · obtain ⟨_, _, read⟩ := bind_eq_ok_iff.1 read
      cases read
  · intro empty
    rw [empty]
    rfl

/-- No text spells two statements. -/
theorem Spells.unique {statement other : Statement} (spells : Spells s statement)
    (again : Spells s other) : statement = other := by
  have read := readCode_eq_some_iff.2 spells
  rw [readCode_eq_some_iff.2 again] at read
  cases read
  rfl

theorem SpellsOperand.isCode {operand : Operand} (spells : SpellsOperand s operand) :
    isCode s = true := by
  cases spells with
  | value numeral _ =>
    have digits := List.all_eq_true.1 numeral.allDigits
    refine isCode_of_symbolChars (List.all_eq_true.2 fun c member => ?_)
    exact isSymbolChar_of_isDigit (digits c member)
  | symbol symbol => exact isCode_of_isSymbol symbol

theorem SpellsCompute.isCode {dest : Dest} {comp : Comp} {jump : Jump}
    (spells : SpellsCompute s dest comp jump) : isCode s = true := by
  refine List.all_eq_true.2 fun c member => ?_
  rcases spells.mem_cases member with field | rfl | rfl
  · exact (Bool.and_eq_true_iff.1 field).1
  · decide
  · decide

/-- All that is spelled counts. -/
theorem Spells.isCode {statement : Statement} (spells : Spells s statement) : isCode s = true := by
  cases spells with
  | load operand =>
    have mark : isCodeChar '@' = true := by decide
    exact List.all_eq_true.2 (List.forall_mem_cons.2 ⟨mark, List.all_eq_true.1 operand.isCode⟩)
  | @label name symbol =>
    change Assembly.isCode (['('] ++ (name.toList ++ [')'])) = true
    rw [isCode_append, isCode_append, isCode_of_isSymbol symbol]
    rfl
  | compute spells => exact spells.isCode

theorem not_spells_comment {text : String} : ¬ Spells s (.comment text) := nofun

theorem exists_error_iff : (∃ cause, readCode s = .error cause) ↔
    s ≠ [] ∧ ∀ statement, ¬ Spells s statement := by
  simp only [← readCode_eq_some_iff, ne_eq, ← readCode_eq_none_iff]
  cases readCode s with
  | error cause => simp
  | ok content => cases content <;> simp

/-! ## Lines -/

/-- **A line is read exactly by the grammar of statements.** Its code is the part before the first
`//` without blanks. It has no statement if this is empty, the statement that this spells if there
is one, and an error otherwise. No text spells two statements, and none spells a comment. -/
theorem readLine_by_grammar (line : String) :
    (∃ code, BeforeComment line.toList code ∧ codeOf line = squeeze code) ∧
    (readLine line = .ok none ↔ codeOf line = []) ∧
    (∀ statement, readLine line = .ok (some statement) ↔ Spells (codeOf line) statement) ∧
    ((∃ cause, readLine line = .error cause) ↔
      codeOf line ≠ [] ∧ ∀ statement, ¬ Spells (codeOf line) statement) ∧
    (∀ statement other, Spells (codeOf line) statement → Spells (codeOf line) other →
      statement = other) ∧
    (∀ text, ¬ Spells (codeOf line) (.comment text)) ∧
    (∀ s, (∃ n, IsNumeral s n) ↔ s ≠ [] ∧ ∀ c ∈ s, c.isDigit = true) ∧
    (∀ s n, IsNumeral s n → decimalValue s = n) := by
  refine ⟨⟨_, beforeComment_cutComment line.toList, rfl⟩, readCode_eq_none_iff,
    fun statement => readCode_eq_some_iff, exists_error_iff, fun statement other => Spells.unique,
    fun text => not_spells_comment, fun s => exists_isNumeral_iff,
    fun s n numeral => numeral.decimalValue_eq⟩

/-- Blanks are dropped even inside a field, and letters may be swapped. -/
example : readLine " D M = M + D ; J M P // twice" =
    .ok (some (.compute { d := true, m := true } (.dPlusY .m) .always)) := by
  decide +kernel

end Hack.Assembly
