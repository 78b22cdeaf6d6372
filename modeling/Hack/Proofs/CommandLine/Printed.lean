import Mathlib
import Hack.CommandLine.Emulate
import Hack.Proofs.Text.Digits
import Hack.Proofs.Text.Escapes
import Hack.Proofs.Text.Splitting

/-!
The lines that the emulator prints, read back.

`Printed.ofLine?` reads a line by its words, without the colours, as what it shows: an executed
instruction, a part of a section, why the run ended, or a cell that was checked. It knows nothing of
how a line is made. What is read of a line is what the line was made of, for every kind of line
(`ofLine?_traceLine`, `filterMap_lines`, `ofLine?_mismatchLine`, ...), and of the lines that
announce a call nothing is read (`filterMap_banner`).
-/

namespace Hack

open Text

/-! ## Words of a printed line -/

/-- The words of a line without its colours. -/
def shownWords (line : List Char) : List String := (words (dropEscapes line)).map String.ofList

theorem shownWords_eq {line left : List Char} (without : WithoutEscapes line left) :
    shownWords line = (words left).map String.ofList := by
  rw [shownWords, without.dropEscapes_eq]

/-- The words of a line go on behind a part of it that a blank parts from the rest. -/
theorem shownWords_append {front left back : List Char} (without : WithoutEscapes front left)
    (parted : left.getLast?.any isBlank = true ∨ back.head?.any isBlank = true) :
    shownWords (front ++ back) = (words left).map String.ofList ++ shownWords back := by
  have still : left.getLast?.any isBlank = true ∨ (dropEscapes back).head?.any isBlank = true := by
    refine parted.imp_right fun begins => ?_
    obtain ⟨c, first, blank⟩ := (Option.any_eq_true _ _).1 begins
    obtain ⟨rest, rfl⟩ := List.head?_eq_some_iff.1 first
    have other : c ≠ '\x1b' := by
      rintro rfl
      cases blank
    rw [dropEscapes_cons other]
    exact begins
  rw [shownWords, without.dropEscapes_append, words_append still, List.map_append, shownWords]

theorem shownWords_of_not_mem {s : List Char} (absent : '\x1b' ∉ s) :
    shownWords s = (words s).map String.ofList :=
  shownWords_eq (withoutEscapes_of_not_mem absent)

/-- A part of a line that ends in a blank. -/
theorem shownWords_cut {s : String} (absent : '\x1b' ∉ s.toList)
    (ends : s.toList.getLast?.any isBlank = true) (back : List Char) :
    shownWords (s.toList ++ back) = (words s.toList).map String.ofList ++ shownWords back :=
  shownWords_append (withoutEscapes_of_not_mem absent) (Or.inl ends)

/-- A word in a line. -/
theorem shownWords_word {s : String} (isWord : IsWord s.toList) (absent : '\x1b' ∉ s.toList)
    {back : List Char} (begins : back.head?.any isBlank = true) :
    shownWords (s.toList ++ back) = s :: shownWords back := by
  rw [shownWords_append (withoutEscapes_of_not_mem absent) (Or.inr begins),
    words_eq_singleton isWord, List.map_singleton, String.ofList_toList, List.singleton_append]

theorem shownWords_number {s : String} (number : IsNumber s.toList) {back : List Char}
    (begins : back.head?.any isBlank = true) :
    shownWords (s.toList ++ back) = s :: shownWords back :=
  shownWords_word number.isWord (number.not_mem (by decide) (by decide)) begins

theorem shownWords_last {s : String} (number : IsNumber s.toList) : shownWords s.toList = [s] := by
  have absent : '\x1b' ∉ s.toList := number.not_mem (by decide) (by decide)
  rw [shownWords_of_not_mem absent, words_eq_singleton number.isWord, List.map_singleton,
    String.ofList_toList]

/-- The colours of a line do not matter. -/
theorem shownWords_render {t : Styled} (absent : '\x1b' ∉ t.plain.toList) :
    shownWords t.render.toList = shownWords t.plain.toList := by
  rw [shownWords_eq (withoutEscapes_render absent), shownWords_of_not_mem absent]

theorem shownWords_column (w : Word) {back : List Char}
    (begins : back.head?.any isBlank = true) :
    shownWords ((Watch.column w).toList ++ back) = Word.text w :: shownWords back := by
  have absent : '\x1b' ∉ (Watch.column w).toList := by
    have inText : '\x1b' ∉ (Word.text w).toList :=
      (isNumber_text w).not_mem (by decide) (by decide)
    simp [Watch.column, padLeft, inText]
  rw [shownWords_append (withoutEscapes_of_not_mem absent) (Or.inr begins), Watch.column,
    words_padLeft, words_eq_singleton (isNumber_text w).isWord, List.map_singleton,
    String.ofList_toList, List.singleton_append]

/-- What stands between two given parts of a word. -/
def between? (front back word : String) : Option String := do
  let behind ← front.toList.isPrefixOf? word.toList
  let inside ← back.toList.isSuffixOf? behind
  pure (String.ofList inside)

theorem between?_eq_some_iff {front back word inside : String} :
    between? front back word = some inside ↔ word = front ++ inside ++ back := by
  simp only [between?, Option.bind_eq_bind, Option.bind_eq_some_iff, Option.pure_def,
    Option.some.injEq, List.isPrefixOf?_eq_some_iff_append_eq,
    List.isSuffixOf?_eq_some_iff_append_eq]
  constructor
  · intro found
    obtain ⟨behind, starts, letters, ends, same⟩ := found
    apply String.toList_inj.1
    rw [String.toList_append, String.toList_append, ← starts, ← ends, ← same, String.toList_ofList,
      List.append_assoc]
  · intro same
    refine ⟨inside.toList ++ back.toList, ?_, inside.toList, rfl, String.ofList_toList⟩
    rw [same, String.toList_append, String.toList_append, List.append_assoc]

/-- The word that a signed number stands for. -/
def word? (s : String) : Option Word := s.toInt?.map (.ofInt 16)

theorem word?_text (w : Word) : word? (Word.text w) = some w := by
  rw [word?, toInt?_text, Option.map_some, BitVec.ofInt_toInt]

/-- The number that hexadecimal digits stand for. -/
def address? (s : String) : Option Nat := Yaml.hexText? s.toList

/-! ## Instructions by their fields -/

namespace Instr

/-- The instruction with the given fields. -/
def ofFields? : List String → Option Instr
  | [field] =>
    match between? "@0x" "" field with
    | some digits => (address? digits).map fun value => .load (.ofNat 16 value)
    | none => (Comp.ofText? field).map fun comp => .compute .none comp .never
  | [first, second] =>
    match Jump.ofText? second with
    | some jump => (Comp.ofText? first).map fun comp => .compute .none comp jump
    | none => do pure (.compute (← Dest.ofText? first) (← Comp.ofText? second) .never)
  | [dest, comp, jump] => do
    pure (.compute (← Dest.ofText? dest) (← Comp.ofText? comp) (← Jump.ofText? jump))
  | _ => none

/-- The words in which an instruction is shown. -/
def fields : Instr → List String
  | .load value => ["@0x" ++ hexadecimal 4 value.toNat]
  | .compute dest comp jump =>
    (if dest = .none then [] else [dest.text]) ++ comp.text ::
      (if jump = .never then [] else [jump.text])

theorem ofFields?_fields (instr : Instr) : ofFields? instr.fields = some instr := by
  cases instr with
  | load value =>
    have digits : between? "@0x" "" ("@0x" ++ hexadecimal 4 value.toNat) =
        some (hexadecimal 4 value.toNat) :=
      between?_eq_some_iff.2 String.append_empty.symm
    simp only [fields, ofFields?, digits, address?, hexText?_hexadecimal, Option.map_some,
      BitVec.ofNat_toNat, BitVec.setWidth_eq]
  | compute dest comp jump =>
    have noLoad : ∀ comp ∈ Comp.all, between? "@0x" "" comp.text = none := by decide
    have noJump : ∀ comp ∈ Comp.all, Jump.ofText? comp.text = none := by decide
    simp only [fields]
    split <;> split
    · next none never =>
      simp [ofFields?, noLoad comp comp.mem_all, Comp.ofText?_text, none, never]
    · next none branches =>
      simp [ofFields?, Jump.ofText?_text branches, Comp.ofText?_text, none]
    · next never =>
      simp [ofFields?, noJump comp comp.mem_all, Dest.ofText?_text, Comp.ofText?_text, never]
    · next branches =>
      simp [ofFields?, Dest.ofText?_text, Comp.ofText?_text, Jump.ofText?_text branches]

theorem plain_styled_load (value : Word) :
    (load value).styled.plain = "@0x" ++ hexadecimal 4 value.toNat ++ "" := by
  apply String.toList_inj.1
  simp [styled, Styled.coloured, Styled.plain]

theorem plain_styled_compute (dest : Dest) (comp : Comp) (jump : Jump) :
    (compute dest comp jump).styled.plain.toList =
      (padRight 4 dest.text).toList ++
        ((padRight 4 comp.text).toList ++ (padRight 3 jump.text).toList) := by
  simp [styled, Styled.coloured, Styled.plain]

/-- An instruction is shown by its fields. -/
theorem words_styled (instr : Instr) :
    (words instr.styled.plain.toList).map String.ofList = instr.fields := by
  cases instr with
  | load value =>
    have number := isNumber_hexadecimal 4 value.toNat
    rw [plain_styled_load,
      words_eq_singleton (number.isWord.affix "@0x" "" (by decide) (by decide)), List.map_singleton,
      String.ofList_toList, String.append_empty, fields]
  | compute dest comp jump =>
    have dests : ∀ dest ∈ Dest.all, dest.text.length < 4 ∧
        (words dest.text.toList).map String.ofList =
          if dest = .none then [] else [dest.text] := by decide
    have comps : ∀ comp ∈ Comp.all, comp.text.length < 4 ∧
        (words comp.text.toList).map String.ofList = [comp.text] := by decide
    have jumps : ∀ jump ∈ Jump.all, (words jump.text.toList).map String.ofList =
        if jump = .never then [] else [jump.text] := by decide
    rw [plain_styled_compute, words_padRight_append (dests dest dest.mem_all).1,
      words_padRight_append (comps comp comp.mem_all).1, words_padRight, List.map_append,
      List.map_append, (dests dest dest.mem_all).2, (comps comp comp.mem_all).2,
      jumps jump jump.mem_all]
    rfl

theorem escape_not_mem_plain (instr : Instr) : '\x1b' ∉ instr.styled.plain.toList := by
  cases instr with
  | load value =>
    have digits : '\x1b' ∉ (hexadecimal 4 value.toNat).toList :=
      (isNumber_hexadecimal 4 value.toNat).not_mem (by decide) (by decide)
    simp [plain_styled_load, digits]
  | compute dest comp jump =>
    have places : ∀ dest ∈ Dest.all, '\x1b' ∉ dest.text.toList := by decide
    have fields : ∀ comp ∈ Comp.all, '\x1b' ∉ comp.text.toList := by decide
    have branches : ∀ jump ∈ Jump.all, '\x1b' ∉ jump.text.toList := by decide
    rw [plain_styled_compute, List.mem_append, List.mem_append, not_or, not_or]
    exact ⟨not_mem_padRight (places dest dest.mem_all) (by decide) 4,
      not_mem_padRight (fields comp comp.mem_all) (by decide) 4,
      not_mem_padRight (branches jump jump.mem_all) (by decide) 3⟩

end Instr

namespace CommandLine

/-! ## The reader of lines -/

/-- What a printed line shows. -/
inductive Printed
  /-- An executed instruction at an address, with the number of those before it and its word, and the
  registers `A` and `D` after it. -/
  | step (time address : Nat) (word : Word) (instr : Instr) (a d : Word)
  /-- The head of a section for an address. -/
  | head (address : Nat)
  | rule
  | registers (a d : Word) (pc : Nat)
  | register (register : Register) (content : Word)
  | cell (address : Nat) (content : Word)
  /-- Whether the machine has halted, and after how many steps. -/
  | ending (halted : Bool) (steps : Nat)
  | mismatch (mismatch : Mismatch)
  /-- So many cells hold what is expected of them. -/
  | agreement (cells : Nat)
  deriving DecidableEq, Repr

namespace Printed

/-- An executed instruction: its address, its word, its fields, and the two registers. -/
def step? (time : Nat) : List String → Option Printed
  | address :: word :: shown =>
    match shown.reverse with
    | d :: a :: fields => do
      let a ← word? (← between? "A=" "" a)
      let d ← word? (← between? "D=" "" d)
      let word := .ofNat 16 (Nat.ofDigitChars 2 word.toList 0)
      pure (.step time (← address? address) word (← Instr.ofFields? fields.reverse) a d)
    | _ => none
  | _ => none

def head? : List String → Option Printed
  | address :: _ => (address? address).map .head
  | [] => none

/-- The registers `A` and `D` with the program counter, or the cell of another register. -/
def register? : String → List String → Option Printed
  | "A", a :: "|" :: "D:" :: d :: "|" :: "PC:" :: pc :: _ => do
    pure (.registers (← word? a) (← word? d) (← address? pc))
  | name, content :: _ => do pure (.register (← Register.ofName? name) (← word? content))
  | _, [] => none

def cell? (address : String) : List String → Option Printed
  | ":" :: content :: _ => do pure (.cell (← address? address) (← word? content))
  | _ => none

/-- A line inside a section: the name of a register and a colon stand before its content. -/
def content? : List String → Option Printed
  | first :: rest =>
    match between? "" ":" first with
    | some name => register? name rest
    | none => cell? first rest
  | [] => none

def ending? : List String → Option Printed
  | ["halted", "after", steps, "steps"] => steps.toNat?.map (.ending true)
  | ["step", "limit", "reached", "after", steps, "steps"] => steps.toNat?.map (.ending false)
  | _ => none

def mismatch? : List String → Option Printed
  | [place, "expected", expected, "but", "was", actual] => do
    let address ← (← between? "RAM[" "]" place).toNat?
    pure (.mismatch ⟨.ofNat 16 address, ← word? expected, ← word? actual⟩)
  | _ => none

def agreement? : List String → Option Printed
  | [cells, "cells", "match"] => cells.toNat?.map .agreement
  | _ => none

/-- A line that is not about an executed instruction is known by its first word. -/
def marked? (mark : String) (rest : List String) : Option Printed :=
  match mark with
  | "+--" => head? rest
  | "|" => content? rest
  | "+------------------------------------------------+" => some .rule
  | "[EXIT]" => ending? rest
  | "✗" => mismatch? rest
  | "✓" => agreement? rest
  | _ => none

/-- What the words of a line show. Only a line about an executed instruction begins with a number in
brackets. -/
def ofWords? : List String → Option Printed
  | first :: rest =>
    match (between? "[" "]" first).bind String.toNat? with
    | some time => step? time rest
    | none => marked? first rest
  | [] => none

/-- What a printed line shows, if it is a line about the run. -/
def ofLine? (line : String) : Option Printed := ofWords? (shownWords line.toList)

/-- The address of the executed instruction that a line shows. -/
def executed? : Printed → Option Nat
  | .step _ address .. => some address
  | _ => none

/-- The address for which a section begins. -/
def section? : Printed → Option Nat
  | .head address => some address
  | _ => none

/-- Whether the machine has halted, and after how many steps. -/
def stop? : Printed → Option (Bool × Nat)
  | .ending halted steps => some (halted, steps)
  | _ => none

/-- The cell that does not hold what is expected of it. -/
def failed? : Printed → Option Mismatch
  | .mismatch found => some found
  | _ => none

/-! ## Executed instructions -/

theorem withoutEscapes_column {t : Styled} (absent : '\x1b' ∉ t.plain.toList) (width : Nat) :
    WithoutEscapes (padRight width t.render ++ " ").toList
      (t.plain.toList ++ List.replicate (width - t.render.length + 1) ' ') := by
  have blanks (n : Nat) : '\x1b' ∉ List.replicate n ' ' :=
    fun member => absurd (List.eq_of_mem_replicate member) (by decide)
  have written : (padRight width t.render ++ " ").toList =
      t.render.toList ++ List.replicate (width - t.render.length + 1) ' ' := by
    rw [String.toList_append, toList_padRight, List.append_assoc, List.replicate_succ']
    rfl
  rw [written]
  exact (withoutEscapes_render absent).append (withoutEscapes_of_not_mem (blanks _))

/-- The columns of an executed instruction before its fields. -/
def placeColumns (time address word : Nat) : Styled :=
  Styled.dim ("[" ++ padLeft 6 '0' (toString time) ++ "]") ++ Styled.raw " " ++
    Styled.coloured .blue (hexadecimal 4 address) ++ Styled.raw (" " ++ binary 16 word ++ " ")

/-- The columns of the registers behind the fields. -/
def registerColumns (a d : Word) : Styled :=
  Styled.dim ("A=" ++ padRight 6 (Word.text a) ++ " D=" ++ padRight 6 (Word.text d))

theorem traceLine_eq (time address : Nat) (instr : Instr) (m : Machine) :
    traceLine time address instr m =
      (placeColumns time address instr.encode.toNat).render ++
        ((padRight 24 instr.styled.render ++ " ") ++ (registerColumns m.a m.d).render) := by
  simp only [traceLine, placeColumns, registerColumns, String.append_assoc]

theorem plain_placeColumns (time address word : Nat) :
    (placeColumns time address word).plain.toList =
      (("[" ++ padLeft 6 '0' (toString time) ++ "]").toList ++
        ' ' :: ((hexadecimal 4 address).toList ++ ' ' :: (binary 16 word).toList)) ++ [' '] := by
  simp [placeColumns, Styled.dim, Styled.raw, Styled.coloured, Styled.plain]

theorem plain_registerColumns (a d : Word) :
    (registerColumns a d).plain.toList =
      (("A=" ++ Word.text a ++ "").toList ++
        List.replicate (6 - (Word.text a).length) ' ') ++
      ' ' :: (("D=" ++ Word.text d ++ "").toList ++
        List.replicate (6 - (Word.text d).length) ' ') := by
  simp [registerColumns, Styled.dim, Styled.plain, toList_padRight]

theorem words_placeColumns (time address word : Nat) :
    (words (placeColumns time address word).plain.toList).map String.ofList =
      ["[" ++ padLeft 6 '0' (toString time) ++ "]", hexadecimal 4 address, binary 16 word] := by
  have isTime := ((isNumber_toString time).padLeft 6).isWord.affix "[" "]" (by decide) (by decide)
  rw [plain_placeColumns, words_concat_blank rfl, words_append_cons isTime rfl,
    words_append_cons (isNumber_hexadecimal 4 address).isWord rfl,
    words_eq_singleton (isNumber_binary 16 word).isWord]
  simp only [List.map_cons, List.map_nil, String.ofList_toList]

theorem words_registerColumns (a d : Word) :
    (words (registerColumns a d).plain.toList).map String.ofList =
      ["A=" ++ Word.text a ++ "", "D=" ++ Word.text d ++ ""] := by
  have isA := (isNumber_text a).isWord.affix "A=" "" (by decide) (by decide)
  have isD := (isNumber_text d).isWord.affix "D=" "" (by decide) (by decide)
  rw [plain_registerColumns, words_append (Or.inr rfl), words_append_replicate,
    words_cons_blank rfl, words_append_replicate, words_eq_singleton isA, words_eq_singleton isD]
  simp only [List.singleton_append, List.map_cons, List.map_nil, String.ofList_toList]

theorem escape_not_mem_placeColumns (time address word : Nat) :
    '\x1b' ∉ (placeColumns time address word).plain.toList := by
  have inTime : '\x1b' ∉ (padLeft 6 '0' time.repr).toList :=
    ((isNumber_toString time).padLeft 6).not_mem (by decide) (by decide)
  have inAddress : '\x1b' ∉ (hexadecimal 4 address).toList :=
    (isNumber_hexadecimal 4 address).not_mem (by decide) (by decide)
  have inWord : '\x1b' ∉ (binary 16 word).toList :=
    (isNumber_binary 16 word).not_mem (by decide) (by decide)
  simp [plain_placeColumns, inTime, inAddress, inWord]

theorem escape_not_mem_registerColumns (a d : Word) :
    '\x1b' ∉ (registerColumns a d).plain.toList := by
  have inA : '\x1b' ∉ (Word.text a).toList := (isNumber_text a).not_mem (by decide) (by decide)
  have inD : '\x1b' ∉ (Word.text d).toList := (isNumber_text d).not_mem (by decide) (by decide)
  simp [plain_registerColumns, inA, inD]

theorem shownWords_traceLine (time address : Nat) (instr : Instr) (m : Machine) :
    shownWords (traceLine time address instr m).toList =
      ["[" ++ padLeft 6 '0' (toString time) ++ "]", hexadecimal 4 address,
        binary 16 instr.encode.toNat] ++ instr.fields ++
      ["A=" ++ Word.text m.a ++ "", "D=" ++ Word.text m.d ++ ""] := by
  have place := withoutEscapes_render
    (escape_not_mem_placeColumns time address instr.encode.toNat)
  have fields := withoutEscapes_column instr.escape_not_mem_plain 24
  have registers := withoutEscapes_render (escape_not_mem_registerColumns m.a m.d)
  have placeEnds : (placeColumns time address
      instr.encode.toNat).plain.toList.getLast?.any isBlank = true := by
    rw [plain_placeColumns, List.getLast?_concat]
    rfl
  have fieldsEnd (n : Nat) :
      (instr.styled.plain.toList ++ List.replicate (n + 1) ' ').getLast?.any isBlank = true := by
    rw [List.replicate_succ', ← List.append_assoc, List.getLast?_concat]
    rfl
  rw [traceLine_eq, String.toList_append, String.toList_append,
    shownWords_append place (Or.inl placeEnds), shownWords_append fields (Or.inl (fieldsEnd _)),
    shownWords_eq registers, words_placeColumns, words_append_replicate, Instr.words_styled,
    words_registerColumns, List.append_assoc]

theorem ofLine?_traceLine (time address : Nat) (instr : Instr) (m : Machine) :
    ofLine? (traceLine time address instr m) =
      some (.step time address instr.encode instr m.a m.d) := by
  have timed : (between? "[" "]" ("[" ++ padLeft 6 '0' (toString time) ++ "]")).bind
      String.toNat? = some time := by
    rw [between?_eq_some_iff.2 rfl, Option.bind_some, (isNumeral_padLeft 6 time).toNat?_eq]
  have a : between? "A=" "" ("A=" ++ Word.text m.a ++ "") = some (Word.text m.a) :=
    between?_eq_some_iff.2 rfl
  have d : between? "D=" "" ("D=" ++ Word.text m.d ++ "") = some (Word.text m.d) :=
    between?_eq_some_iff.2 rfl
  have behind : (instr.fields ++
      ["A=" ++ Word.text m.a ++ "", "D=" ++ Word.text m.d ++ ""]).reverse =
        ("D=" ++ Word.text m.d ++ "") :: ("A=" ++ Word.text m.a ++ "") :: instr.fields.reverse := by
    rw [List.reverse_append]
    rfl
  rw [ofLine?, shownWords_traceLine, List.append_assoc, List.cons_append, ofWords?, timed]
  dsimp only [List.cons_append, List.nil_append, step?]
  rw [behind]
  simp only [a, d, word?_text, address?, hexText?_hexadecimal, ofDigitChars_binary,
    List.reverse_reverse, Instr.ofFields?_fields, BitVec.ofNat_toNat, BitVec.setWidth_eq,
    Option.bind_eq_bind, Option.bind_some, Option.pure_def]

/-- A line that was copied from a terminal without its colours. -/
example : ofLine? "[000007] 0002 1110001100001000 M   D        A=2      D=-7    " =
    some (.step 7 2 58120 (.compute { m := true } .d .never) 2 (-7)) := by cbv

/-! ## Sections -/

/-- A line that does not begin with a number in brackets is read by its first word. -/
theorem ofLine?_marked {line mark : String} {rest : List String}
    (shown : shownWords line.toList = mark :: rest)
    (unnumbered : (between? "[" "]" mark).bind String.toNat? = none) :
    ofLine? line = marked? mark rest := by
  rw [ofLine?, shown, ofWords?, unnumbered]

theorem ofLine?_head (address : Nat) :
    ofLine? (" +-- " ++ hexadecimal 4 address ++ " ---------------------------------------+") =
      some (.head address) := by
  have shown : shownWords (" +-- " ++ hexadecimal 4 address ++
      " ---------------------------------------+").toList =
      ["+--", hexadecimal 4 address, "---------------------------------------+"] := by
    rw [String.toList_append, String.toList_append, List.append_assoc,
      shownWords_cut (by decide) rfl, shownWords_number (isNumber_hexadecimal 4 address) rfl,
      shownWords_of_not_mem (by decide)]
    rfl
  rw [ofLine?_marked shown (by cbv)]
  simp [marked?, head?, address?, hexText?_hexadecimal]

theorem ofLine?_rule : ofLine? Watch.rule = some .rule := by
  cbv

theorem ofLine?_content {line first : String} {rest : List String}
    (shown : shownWords line.toList = "|" :: first :: rest) :
    ofLine? line = content? (first :: rest) := by
  rw [ofLine?_marked shown (by cbv)]
  rfl

theorem ofLine?_registers (m : Machine) :
    ofLine? (" |   A: " ++ Watch.column m.a ++ " |   D: " ++ Watch.column m.d ++ " |  PC: " ++
      hexadecimal 4 m.pc ++ padRight 12 "" ++ "|") = some (.registers m.a m.d m.pc) := by
  have shown : shownWords (" |   A: " ++ Watch.column m.a ++ " |   D: " ++ Watch.column m.d ++
      " |  PC: " ++ hexadecimal 4 m.pc ++ padRight 12 "" ++ "|").toList =
      ["|", "A:", Word.text m.a, "|", "D:", Word.text m.d, "|", "PC:", hexadecimal 4 m.pc,
        "|"] := by
    simp only [String.toList_append, List.append_assoc]
    rw [shownWords_cut (by decide) rfl, shownWords_column m.a rfl,
      shownWords_cut (by decide) rfl, shownWords_column m.d rfl, shownWords_cut (by decide) rfl,
      shownWords_number (isNumber_hexadecimal 4 m.pc) rfl, shownWords_of_not_mem (by decide)]
    rfl
  have name : between? "" ":" "A:" = some "A" := by decide
  rw [ofLine?_content shown, content?, name]
  simp [register?, word?_text, address?, hexText?_hexadecimal]

theorem ofLine?_register (register : Register) (content : Word) :
    ofLine? (" | " ++ padLeft 4 ' ' register.name ++ ": " ++ Watch.column content ++
      padRight 35 "" ++ "|") = some (.register register content) := by
  have label : '\x1b' ∉ (" | " ++ padLeft 4 ' ' register.name ++ ": ").toList ∧
      (" | " ++ padLeft 4 ' ' register.name ++ ": ").toList.getLast?.any isBlank = true ∧
      (words (" | " ++ padLeft 4 ' ' register.name ++ ": ").toList).map String.ofList =
        ["|", register.name ++ ":"] := by
    cases register <;> decide
  have shown : shownWords (" | " ++ padLeft 4 ' ' register.name ++ ": " ++
      Watch.column content ++ padRight 35 "" ++ "|").toList =
      ["|", register.name ++ ":", Word.text content, "|"] := by
    rw [String.toList_append, String.toList_append, String.toList_append, List.append_assoc,
      List.append_assoc, shownWords_cut label.1 label.2.1, label.2.2, shownWords_column content rfl,
      shownWords_of_not_mem (by decide)]
    rfl
  have name : between? "" ":" (register.name ++ ":") = some register.name := by
    cases register <;> decide
  rw [ofLine?_content shown, content?, name]
  cases register <;> simp [Register.name, register?, Register.ofName?, Register.all, word?_text]

theorem filterMap_registerLines (m : Machine) :
    (Watch.registerLines m).filterMap ofLine? =
      .registers m.a m.d m.pc ::
        Register.all.map fun register => .register register (m.register register) := by
  rw [Watch.registerLines, List.filterMap_cons_some (ofLine?_registers m), List.filterMap_map]
  refine congrArg (_ :: ·) ?_
  rw [← List.filterMap_eq_map]
  exact List.filterMap_congr fun register _ => ofLine?_register register (m.register register)

theorem ofLine?_cell (address : Nat) (content : Word) {back : String}
    (begins : back.toList.head?.any isBlank = true) :
    ofLine? (" | " ++ hexadecimal 4 address ++ " : " ++ Watch.column content ++ back) =
      some (.cell address content) := by
  have number := isNumber_hexadecimal 4 address
  have shown : shownWords (" | " ++ hexadecimal 4 address ++ " : " ++ Watch.column content ++
      back).toList =
      "|" :: hexadecimal 4 address :: ":" :: Word.text content :: shownWords back.toList := by
    simp only [String.toList_append, List.append_assoc]
    rw [shownWords_cut (by decide) rfl, shownWords_number number rfl,
      shownWords_cut (by decide) rfl, shownWords_column content begins]
    rfl
  have noName : between? "" ":" (hexadecimal 4 address) = none := by
    refine Option.eq_none_iff_forall_ne_some.2 fun name found => ?_
    have mark : ':' ∉ (hexadecimal 4 address).toList := number.not_mem (by decide) (by decide)
    rw [between?_eq_some_iff.1 found] at mark
    simp at mark
  rw [ofLine?_content shown, content?, noName]
  simp [cell?, word?_text, address?, hexText?_hexadecimal]

/-- The cells of the stack, from its first one to the one below the address in `SP`, which counts as
no less than the first cell and no more than the screen. -/
def stackCells (m : Machine) : List Printed :=
  let top := min (max (m.register .sp).toNat 256) 16384
  (List.range' 256 (top - 256)).map fun address => .cell address (m.get (.ofNat 16 address))

theorem filterMap_stackLines (m : Machine) :
    (Watch.stackLines m).filterMap ofLine? = stackCells m := by
  rw [Watch.stackLines, stackCells, List.filterMap_map, ← List.filterMap_eq_map]
  refine List.filterMap_congr fun address _ => ?_
  dsimp only [Function.comp]
  rw [String.append_assoc]
  exact ofLine?_cell address (m.get (.ofNat 16 address)) rfl

theorem ofLine?_cellLine (m : Machine) (address : Word) :
    ofLine? (Watch.cellLine m address) = some (.cell address.toNat (m.get address)) := by
  rw [Watch.cellLine, String.append_assoc, String.append_assoc]
  refine ofLine?_cell address.toNat (m.get address) ?_
  rw [String.toList_append]
  rfl

/-- What the section for an address shows of the machine after its instruction: the registers, the
stack if that is wanted, and the cells that are listed. -/
def sectionOf (watch : Watch) (address : Nat) (m : Machine) : List Printed :=
  (Printed.head address :: Printed.registers m.a m.d m.pc ::
    Register.all.map fun name => Printed.register name (m.register name)) ++ [Printed.rule] ++
  (if watch.stack then stackCells m ++ [Printed.rule] else []) ++
  (watch.cells.map fun place => Printed.cell place.toNat (m.get place)) ++ [Printed.rule]

theorem filterMap_lines (watch : Watch) (address : Nat) (m : Machine) :
    (watch.lines address m).filterMap ofLine? = sectionOf watch address m := by
  have rule : [Watch.rule].filterMap ofLine? = [.rule] := by
    rw [List.filterMap_cons_some ofLine?_rule, List.filterMap_nil]
  have cells : (watch.cells.map (Watch.cellLine m)).filterMap ofLine? =
      watch.cells.map fun address => .cell address.toNat (m.get address) := by
    rw [List.filterMap_map, ← List.filterMap_eq_map]
    exact List.filterMap_congr fun address _ => ofLine?_cellLine m address
  have stack : (if watch.stack then Watch.stackLines m ++ [Watch.rule] else []).filterMap ofLine? =
      if watch.stack then stackCells m ++ [.rule] else [] := by
    split
    · rw [List.filterMap_append, filterMap_stackLines, rule]
    · rfl
  rw [Watch.lines, sectionOf, List.filterMap_append, List.filterMap_append, List.filterMap_append,
    List.filterMap_append, List.filterMap_cons_some (ofLine?_head address), filterMap_registerLines,
    cells, stack, rule]

/-- What is looked for is not found in the body of a section. -/
structure SkipsBody {β : Type} (find? : Printed → Option β) : Prop where
  rule : find? .rule = none
  registers : ∀ a d pc, find? (.registers a d pc) = none
  register : ∀ name content, find? (.register name content) = none
  cell : ∀ place content, find? (.cell place content) = none

theorem skipsBody_executed? : SkipsBody executed? :=
  ⟨rfl, fun _ _ _ => rfl, fun _ _ => rfl, fun _ _ => rfl⟩

theorem skipsBody_section? : SkipsBody section? :=
  ⟨rfl, fun _ _ _ => rfl, fun _ _ => rfl, fun _ _ => rfl⟩

theorem skipsBody_stop? : SkipsBody stop? :=
  ⟨rfl, fun _ _ _ => rfl, fun _ _ => rfl, fun _ _ => rfl⟩

theorem skipsBody_failed? : SkipsBody failed? :=
  ⟨rfl, fun _ _ _ => rfl, fun _ _ => rfl, fun _ _ => rfl⟩

theorem SkipsBody.filterMap_sectionOf {β : Type} {find? : Printed → Option β}
    (skips : SkipsBody find?) (watch : Watch) (address : Nat) (m : Machine) :
    (sectionOf watch address m).filterMap find? = (find? (.head address)).toList := by
  have places {α : Type} (places : List α) (place : α → Nat) (content : α → Word) :
      (places.map fun x => Printed.cell (place x) (content x)).filterMap find? = [] := by
    rw [List.filterMap_map, List.filterMap_eq_nil_iff]
    exact fun x _ => skips.cell (place x) (content x)
  have names : (Register.all.map fun name =>
      Printed.register name (m.register name)).filterMap find? = [] := by
    rw [List.filterMap_map, List.filterMap_eq_nil_iff]
    exact fun name _ => skips.register name (m.register name)
  have stack : (if watch.stack then stackCells m ++ [Printed.rule] else []).filterMap find? = [] := by
    have cells : (stackCells m).filterMap find? = [] :=
      places _ (fun address => address) fun address => m.get (.ofNat 16 address)
    split
    · rw [List.filterMap_append, cells, List.filterMap_cons_none skips.rule, List.filterMap_nil,
        List.append_nil]
    · rfl
  simp only [sectionOf, List.filterMap_append, List.filterMap_cons, List.filterMap_nil,
    skips.rule, skips.registers, names, stack, places, List.append_nil]
  cases find? (.head address) <;> rfl

/-! ## The report -/

theorem ofLine?_ending (halted : Bool) (steps : Nat) :
    ofLine? ((if halted then "[EXIT] halted after " else "[EXIT] step limit reached after ") ++
      toString steps ++ " steps") = some (.ending halted steps) := by
  have unnumbered : (between? "[" "]" "[EXIT]").bind String.toNat? = none := by cbv
  have number := isNumber_toString steps
  cases halted with
  | true =>
    have shown : shownWords ("[EXIT] halted after " ++ toString steps ++ " steps").toList =
        ["[EXIT]", "halted", "after", toString steps, "steps"] := by
      rw [String.toList_append, String.toList_append, List.append_assoc,
        shownWords_cut (by decide) rfl, shownWords_number number rfl,
        shownWords_of_not_mem (by decide)]
      rfl
    rw [if_pos rfl, ofLine?_marked shown unnumbered]
    simp only [marked?, ending?, toNat?_toString, Option.map_some]
  | false =>
    have shown : shownWords ("[EXIT] step limit reached after " ++ toString steps ++
        " steps").toList =
        ["[EXIT]", "step", "limit", "reached", "after", toString steps, "steps"] := by
      rw [String.toList_append, String.toList_append, List.append_assoc,
        shownWords_cut (by decide) rfl, shownWords_number number rfl,
        shownWords_of_not_mem (by decide)]
      rfl
    rw [if_neg Bool.false_ne_true, ofLine?_marked shown unnumbered]
    simp only [marked?, ending?, toNat?_toString, Option.map_some]

/-- What a line says about a cell that does not hold what is expected. -/
def mismatchSpans (mismatch : Mismatch) : Styled :=
  Styled.raw " " ++ Styled.strong .red "✗" ++
    Styled.raw (" RAM[" ++ toString mismatch.address.toNat ++ "] expected ") ++
    Styled.coloured .green (Word.text mismatch.expected) ++ Styled.raw " but was " ++
    Styled.coloured .red (Word.text mismatch.actual)

/-- What a line says if all of so many cells hold what is expected. -/
def agreementSpans (cells : Nat) : Styled :=
  Styled.raw " " ++ Styled.strong .green "✓" ++
    Styled.raw (" " ++ toString cells ++ " cells match")

theorem plain_mismatchSpans (mismatch : Mismatch) :
    (mismatchSpans mismatch).plain.toList =
      " ✗ ".toList ++ (("RAM[" ++ toString mismatch.address.toNat ++ "]").toList ++
        (" expected ".toList ++ ((Word.text mismatch.expected).toList ++
          (" but was ".toList ++ (Word.text mismatch.actual).toList)))) := by
  simp [mismatchSpans, Styled.raw, Styled.strong, Styled.coloured, Styled.plain]

theorem plain_agreementSpans (cells : Nat) :
    (agreementSpans cells).plain.toList =
      " ✓ ".toList ++ ((toString cells).toList ++ " cells match".toList) := by
  simp [agreementSpans, Styled.raw, Styled.strong, Styled.plain]

theorem shownWords_mismatchLine (mismatch : Mismatch) :
    shownWords (mismatchLine mismatch).toList =
      ["✗", "RAM[" ++ toString mismatch.address.toNat ++ "]", "expected",
        Word.text mismatch.expected, "but", "was", Word.text mismatch.actual] := by
  have address := isNumber_toString mismatch.address.toNat
  have expected := isNumber_text mismatch.expected
  have actual := isNumber_text mismatch.actual
  have place := address.isWord.affix "RAM[" "]" (by decide) (by decide)
  have inPlace : '\x1b' ∉ ("RAM[" ++ toString mismatch.address.toNat ++ "]").toList := by
    simp only [String.toList_append, List.mem_append, not_or]
    exact ⟨⟨by decide, address.not_mem (by decide) (by decide)⟩, by decide⟩
  have absent : '\x1b' ∉ (mismatchSpans mismatch).plain.toList := by
    simp only [plain_mismatchSpans, List.mem_append, not_or]
    exact ⟨by decide, inPlace, by decide, expected.not_mem (by decide) (by decide), by decide,
      actual.not_mem (by decide) (by decide)⟩
  have styled : mismatchLine mismatch = (mismatchSpans mismatch).render := rfl
  rw [styled, shownWords_render absent, plain_mismatchSpans, shownWords_cut (by decide) rfl,
    shownWords_word place inPlace rfl, shownWords_cut (by decide) rfl,
    shownWords_number expected rfl, shownWords_cut (by decide) rfl, shownWords_last actual]
  rfl

theorem shownWords_matchLine (cells : Nat) :
    shownWords (matchLine cells).toList = ["✓", toString cells, "cells", "match"] := by
  have number := isNumber_toString cells
  have absent : '\x1b' ∉ (agreementSpans cells).plain.toList := by
    simp only [plain_agreementSpans, List.mem_append, not_or]
    exact ⟨by decide, number.not_mem (by decide) (by decide), by decide⟩
  have styled : matchLine cells = (agreementSpans cells).render := rfl
  rw [styled, shownWords_render absent, plain_agreementSpans, shownWords_cut (by decide) rfl,
    shownWords_number number rfl, shownWords_of_not_mem (by decide)]
  rfl

theorem ofLine?_mismatchLine (mismatch : Mismatch) :
    ofLine? (mismatchLine mismatch) = some (.mismatch mismatch) := by
  have place : between? "RAM[" "]" ("RAM[" ++ toString mismatch.address.toNat ++ "]") =
      some (toString mismatch.address.toNat) := between?_eq_some_iff.2 rfl
  rw [ofLine?_marked (shownWords_mismatchLine mismatch) (by cbv)]
  simp only [marked?, mismatch?, place, toNat?_toString, word?_text, BitVec.ofNat_toNat,
    BitVec.setWidth_eq, Option.bind_eq_bind, Option.bind_some, Option.pure_def]

theorem ofLine?_matchLine (cells : Nat) : ofLine? (matchLine cells) = some (.agreement cells) := by
  rw [ofLine?_marked (shownWords_matchLine cells) (by cbv)]
  simp only [marked?, agreement?, toNat?_toString, Option.map_some]

/-! ## Other lines -/

/-- Nothing is read of a line in the frame around a request, whatever is requested. -/
theorem ofLine?_frame {front : String} (absent : '\x1b' ∉ front.toList)
    (ends : front.toList.getLast?.any isBlank = true) {label : String} {more : List String}
    (frame : (words front.toList).map String.ofList = "|" :: label :: more)
    (unknown : ∀ rest, content? (label :: (more ++ rest)) = none) (back : String) :
    ofLine? (front ++ back) = none := by
  have shown : shownWords (front ++ back).toList =
      "|" :: label :: (more ++ shownWords back.toList) := by
    rw [String.toList_append, shownWords_cut absent ends, frame]
    rfl
  rw [ofLine?_content shown, unknown]

theorem ofLine?_program (path : String) :
    ofLine? ("| Emulate: " ++ padRight 36 path ++ " |") = none := by
  have frame : (words "| Emulate: ".toList).map String.ofList = ["|", "Emulate:"] := by decide
  have unknown (rest : List String) : content? ("Emulate:" :: ([] ++ rest)) = none := by
    cases rest <;> cbv
  rw [String.append_assoc]
  exact ofLine?_frame (by decide) (by decide) frame unknown _

theorem ofLine?_script (path : String) :
    ofLine? ("|  - Script: " ++ padRight 34 path ++ " |") = none := by
  have frame : (words "|  - Script: ".toList).map String.ofList = ["|", "-", "Script:"] := by
    decide
  have unknown (rest : List String) : content? ("-" :: (["Script:"] ++ rest)) = none := by cbv
  rw [String.append_assoc]
  exact ofLine?_frame (by decide) (by decide) frame unknown _

theorem ofLine?_watch (path : String) :
    ofLine? ("|  - Dump: " ++ padRight 36 path ++ " |") = none := by
  have frame : (words "|  - Dump: ".toList).map String.ofList = ["|", "-", "Dump:"] := by decide
  have unknown (rest : List String) : content? ("-" :: (["Dump:"] ++ rest)) = none := by cbv
  rw [String.append_assoc]
  exact ofLine?_frame (by decide) (by decide) frame unknown _

/-- Nothing is read of a line that begins with another word. -/
theorem ofLine?_other {line mark : String} {rest : List String}
    (shown : shownWords line.toList = mark :: rest)
    (unnumbered : (between? "[" "]" mark).bind String.toNat? = none)
    (unknown : marked? mark rest = none) : ofLine? line = none :=
  (ofLine?_marked shown unnumbered).trans unknown

/-- Nothing is read of the lines that announce a request. -/
theorem filterMap_banner (request : EmulateRequest) : (banner request).filterMap ofLine? = [] := by
  have title : shownWords "Hack Emulator by kanade-k-1228".toList =
      ["Hack", "Emulator", "by", "kanade-k-1228"] := by
    rw [shownWords_of_not_mem (by decide)]
    rfl
  have frame : shownWords "+-----------------------------------------------+".toList =
      ["+-----------------------------------------------+"] := by
    rw [shownWords_of_not_mem (by decide)]
    rfl
  rw [List.filterMap_eq_nil_iff]
  intro line member
  simp only [banner, List.mem_append, List.mem_cons, List.not_mem_nil, or_false,
    Option.mem_toList, Option.map_eq_some_iff] at member
  rcases member with (((rfl | rfl | rfl) | script) | watch) | rfl
  · exact ofLine?_other title (by cbv) rfl
  · exact ofLine?_other frame (by cbv) rfl
  · exact ofLine?_program request.program
  · obtain ⟨path, _, rfl⟩ := script
    exact ofLine?_script path
  · obtain ⟨path, _, rfl⟩ := watch
    exact ofLine?_watch path
  · exact ofLine?_other frame (by cbv) rfl

/-- Nothing is read of the line that announces a watch list. -/
theorem ofLine?_watching (count path : String) :
    ofLine? (" * Dump[" ++ count ++ "] " ++ path) = none := by
  have shown : shownWords (" * Dump[" ++ count ++ "] " ++ path).toList =
      "*" :: shownWords ("Dump[" ++ count ++ "] " ++ path).toList := by
    simp only [String.toList_append, List.append_assoc]
    exact shownWords_cut (by decide : '\x1b' ∉ " * ".toList) rfl _
  exact ofLine?_other shown (by cbv) rfl

end Printed

end CommandLine

end Hack
