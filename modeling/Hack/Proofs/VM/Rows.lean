import Hack.Proofs.Text.Digits
import Hack.Proofs.VM.Colours
import Hack.VM.Listing

/-!
The rows of a listing, read back from their text.

A row shows a source line or a statement (`Row.shown`). On paper it has two columns with a bar between
them. In the left one the address of an instruction stands in brackets, and it is read off there
(`bracketedAddress?_render`). The right one is read by `Listed.ofText?`, without its colours: a
statement is indented, and a number and a colon stand before a source line. Of the row of a statement
the text of the statement is read (`listed_of_statement?`). Of the row of a line its number is read,
and a text that stands for the same command, the same error or nothing, with the same comment
(`exists_listed_of_line?`).
-/

namespace Hack.VM

open Assembly Text

/-! ## What a row shows -/

namespace Row

/-- The source line or the statement that a row shows. -/
def shown : Row → Line ⊕ Statement
  | .command line _ | .other line => .inl line
  | .instruction _ statement | .mark statement => .inr statement

/-- The source line of a row. -/
def line? (row : Row) : Option Line := row.shown.getLeft?

/-- The statement of a row. -/
def statement? (row : Row) : Option Statement := row.shown.getRight?

/-- The address beside a row. -/
def address? : Row → Option Nat
  | .instruction address _ => some address
  | .command .. | .other _ | .mark _ => none

/-- The row of a line with its blocks. -/
def ofLine (line : Line) : List Block → Row
  | [] => .other line
  | block :: _ => .command line block.command

/-- A row has an address beside it exactly if it shows an instruction. -/
def StandsAt (address : Nat) (row : Row) : Prop :=
  row.address? = if row.statement?.any Statement.isInstruction then some address else none

theorem standsAt_ofLine (address : Nat) (line : Line) (own : List Block) :
    (ofLine line own).StandsAt address := by
  cases own <;> rfl

@[simp] theorem shown_ofLine (line : Line) (own : List Block) :
    (ofLine line own).shown = .inl line := by
  cases own <;> rfl

/-- The row of a line is a command only if the line has a block with this command. -/
theorem exists_block_of_ofLine {line : Line} {own : List Block} {command : Command}
    (same : ofLine line own = .command line command) (single : own.length ≤ 1) :
    ∃ block, own = [block] ∧ block.command = command := by
  rcases own with _ | ⟨block, _ | _⟩
  · cases same
  · cases same
    exact ⟨block, rfl, rfl⟩
  · simp at single

theorem eq_nil_of_ofLine {line : Line} {own : List Block} (same : ofLine line own = .other line) :
    own = [] := by
  cases own with
  | nil => rfl
  | cons _ _ => cases same

end Row

/-! ## The text of a row -/

/-- The address in brackets at the beginning of a listed line. -/
def bracketedAddress? (text : String) : Option Nat :=
  match text.toList with
  | '[' :: rest => Yaml.hexText? (rest.takeWhile (· != ']'))
  | _ => none

theorem bracketedAddress?_of_toList {text : String} (width n : Nat) (rest : List Char)
    (spelt : text.toList = '[' :: ((hexadecimal width n).toList ++ ']' :: rest)) :
    bracketedAddress? text = some n := by
  have absent : ']' ∉ (hexadecimal width n).toList :=
    (isNumber_hexadecimal width n).not_mem (by decide) (by decide)
  have digits : ∀ c ∈ (hexadecimal width n).toList, (c != ']') = true :=
    fun c member => bne_iff_ne.2 (ne_of_mem_of_not_mem member absent)
  have inside : ((hexadecimal width n).toList ++ ']' :: rest).takeWhile (· != ']') =
      (hexadecimal width n).toList := by
    rw [List.takeWhile_append_of_pos digits]
    exact List.append_nil _
  unfold bracketedAddress?
  rw [spelt]
  exact (congrArg Yaml.hexText? inside).trans (hexText?_hexadecimal width n)

theorem bracketedAddress?_margin (rest : String) :
    bracketedAddress? (Row.margin ++ rest) = none := by
  rw [bracketedAddress?, String.toList_append]
  rfl

namespace Row

/-- What stands behind the number of a line. -/
def body : Row → String
  | .command line parsed => parsed.styled.render ++ (" " ++ comment line)
  | .other line =>
    if line.code.isEmpty then comment line
    else (Styled.strong .red line.code).render ++ (" " ++ comment line)
  | .instruction .. | .mark _ => ""

/-- What stands before the bar of a statement. -/
def leftOf : Row → String
  | .instruction address _ => "[" ++ hexadecimal 4 address ++ "] " ++ padRight 12 ""
  | .command .. | .other _ | .mark _ => padRight 19 ""

/-- A line is listed behind the margin and its number. -/
theorem render_of_line? {row : Row} {line : Line} (source : row.line? = some line) :
    row.render = margin ++ (number line ++ row.body) := by
  cases row with
  | command own parsed =>
    obtain rfl : own = line := Option.some.inj source
    simp only [render, body, String.append_assoc]
  | other own =>
    obtain rfl : own = line := Option.some.inj source
    rw [render, body]
    split <;> simp only [String.append_assoc]
  | instruction _ _ => cases source
  | mark _ => cases source

/-- A statement is listed behind the bar and seven blanks. -/
theorem render_of_statement? {row : Row} {statement : Statement}
    (shown : row.statement? = some statement) :
    row.render = row.leftOf ++ ("|       " ++ statement.styled.render) := by
  cases row with
  | command own parsed => cases shown
  | other own => cases shown
  | instruction address own =>
    obtain rfl : own = statement := Option.some.inj shown
    simp only [render, leftOf, String.append_assoc]
  | mark own =>
    obtain rfl : own = statement := Option.some.inj shown
    have bar : "|" ++ ("       " ++ own.styled.render) = "|       " ++ own.styled.render := by
      rw [← String.append_assoc]
      rfl
    rw [render, margin, String.append_assoc, String.append_assoc, bar]
    rfl

/-- What stands in brackets before a listed line is the address beside its row. -/
theorem bracketedAddress?_render (row : Row) : bracketedAddress? row.render = row.address? := by
  cases row with
  | command line parsed =>
    have source : (command line parsed).line? = some line := rfl
    rw [render_of_line? source, bracketedAddress?_margin]
    rfl
  | other line =>
    have source : (other line).line? = some line := rfl
    rw [render_of_line? source, bracketedAddress?_margin]
    rfl
  | instruction address statement =>
    refine bracketedAddress?_of_toList 4 address
      (" " ++ padRight 12 "" ++ "|       " ++ statement.styled.render).toList ?_
    simp [render]
  | mark statement =>
    rw [render, String.append_assoc, bracketedAddress?_margin]
    rfl

end Row

/-! ## The right column -/

/-- What a listed line shows behind the bar: a source line by its number and a text, or a statement
by its text. -/
inductive Listed
  | source (number : Nat) (text : String)
  | statement (text : String)
  deriving DecidableEq, Repr

namespace Listed

/-- What a listed line shows, without its colours. A statement is indented by seven blanks; before a
source line stands a number with a colon behind it. -/
def ofText? (text : String) : Option Listed :=
  match cutAt? '|' (dropEscapes text.toList) with
  | some (_, column) =>
    match (List.replicate 7 ' ').isPrefixOf? column with
    | some text => some (.statement (String.ofList text))
    | none =>
      match cutAt? ':' (column.dropWhile isBlank) with
      | some (number, text) =>
        (String.ofList number).toNat?.map fun number => .source number (String.ofList text.tail)
      | none => none
  | none => none

/-- The number of the source line or the text of the statement that a listed line shows. -/
def entry : Listed → Nat ⊕ String
  | .source number _ => .inl number
  | .statement text => .inr text

theorem cutAt?_bar {left right : String} (noBar : '|' ∉ left.toList)
    (noEscape : '\x1b' ∉ left.toList) :
    cutAt? '|' (dropEscapes (left ++ ("|" ++ right)).toList) =
      some (left.toList, dropEscapes right.toList) := by
  have plain : '\x1b' ∉ left.toList ++ ['|'] := by
    rw [List.mem_append, not_or]
    exact ⟨noEscape, by decide⟩
  have written : (left ++ ("|" ++ right)).toList = (left.toList ++ ['|']) ++ right.toList := by
    simp
  rw [written, (withoutEscapes_of_not_mem plain).dropEscapes_append, List.append_assoc,
    List.singleton_append, cutAt?_append noBar]

theorem blanks_le {m n : Nat} {c : Char} (other : c ≠ ' ') {rest more : List Char}
    (same : List.replicate m ' ' ++ rest = List.replicate n ' ' ++ c :: more) : m ≤ n := by
  induction m generalizing n with
  | zero => exact Nat.zero_le n
  | succ m ih =>
    cases n with
    | zero =>
      rw [List.replicate_succ] at same
      exact absurd (List.cons.inj same).1.symm other
    | succ n =>
      rw [List.replicate_succ, List.replicate_succ] at same
      exact Nat.succ_le_succ (ih (List.cons.inj same).2)

/-- The text of a statement is read. -/
theorem ofText?_statement {left written : String} (noBar : '|' ∉ left.toList)
    (noEscape : '\x1b' ∉ left.toList) :
    ofText? (left ++ ("|       " ++ written)) = some (.statement (unstyled written)) := by
  have bar : "|       " ++ written = "|" ++ ("       " ++ written) := by
    rw [← String.append_assoc]
    rfl
  have indented : dropEscapes ("       " ++ written).toList =
      List.replicate 7 ' ' ++ dropEscapes written.toList := by
    rw [String.toList_append]
    exact (withoutEscapes_of_not_mem (by decide)).dropEscapes_append written.toList
  have cut : (List.replicate 7 ' ').isPrefixOf?
      (List.replicate 7 ' ' ++ dropEscapes written.toList) = some (dropEscapes written.toList) :=
    List.isPrefixOf?_eq_some_iff_append_eq.2 rfl
  rw [ofText?, bar, cutAt?_bar noBar noEscape]
  simp only [indented, cut]
  rfl

theorem toList_number (line : Line) :
    (Row.number line).toList =
      List.replicate (4 - (toString line.number).length + 1) ' ' ++
        (Nat.toDigits 10 line.number ++ [':', ' ']) := by
  have blank : " ".toList = [' '] := rfl
  have mark : ": ".toList = [':', ' '] := rfl
  simp only [Row.number, padLeft, String.toList_append, String.toList_ofList,
    Nat.toString_eq_repr, Nat.toList_repr, blank, mark, List.replicate_succ, List.cons_append,
    List.nil_append, List.append_assoc]

/-- The number of a line is read, and what stands behind it. -/
theorem ofText?_source (line : Line) (body : String) :
    ofText? (Row.margin ++ (Row.number line ++ body)) =
      some (.source line.number (unstyled body)) := by
  have digits : IsNumber (Nat.toDigits 10 line.number) :=
    isNumber_of_allDigits Nat.toDigits_ne_nil (allDigits_toDigits line.number)
  obtain ⟨first, rest, split⟩ := List.exists_cons_of_ne_nil digits.ne_nil
  have solid : isBlank first = false := by
    refine digits.isWord.solid first ?_
    rw [split]
    exact List.mem_cons_self
  have noBlank : first ≠ ' ' := by
    rintro rfl
    cases solid
  have noEscape : '\x1b' ∉ (Row.number line).toList := by
    have inDigits : '\x1b' ∉ Nat.toDigits 10 line.number := digits.not_mem (by decide) (by decide)
    simp [toList_number, inDigits]
  have column : dropEscapes (Row.number line ++ body).toList =
      List.replicate (4 - (toString line.number).length + 1) ' ' ++
        (Nat.toDigits 10 line.number ++ ':' :: ' ' :: dropEscapes body.toList) := by
    rw [String.toList_append, (withoutEscapes_of_not_mem noEscape).dropEscapes_append,
      toList_number, List.append_assoc, List.append_assoc]
    rfl
  -- there are fewer blanks before the number than before a statement
  have noStatement : (List.replicate 7 ' ').isPrefixOf?
      (List.replicate (4 - (toString line.number).length + 1) ' ' ++
        (Nat.toDigits 10 line.number ++ ':' :: ' ' :: dropEscapes body.toList)) = none := by
    refine Option.eq_none_iff_forall_ne_some.2 fun text found => ?_
    have same := List.isPrefixOf?_eq_some_iff_append_eq.1 found
    rw [split, List.cons_append] at same
    have few := blanks_le noBlank same
    omega
  have number : (List.replicate (4 - (toString line.number).length + 1) ' ' ++
      (Nat.toDigits 10 line.number ++ ':' :: ' ' :: dropEscapes body.toList)).dropWhile isBlank =
      Nat.toDigits 10 line.number ++ ':' :: ' ' :: dropEscapes body.toList := by
    rw [List.dropWhile_append_of_pos fun c member => by rw [List.eq_of_mem_replicate member]; rfl,
      split, List.cons_append, List.dropWhile_cons_of_neg (by simp [solid])]
  have value : (String.ofList (Nat.toDigits 10 line.number)).toNat? = some line.number :=
    toNat?_toString line.number
  have cut := cutAt?_append (digits.not_mem (by decide : ':'.isAlphanum = false) (by decide))
    (' ' :: dropEscapes body.toList)
  rw [ofText?, Row.margin, String.append_assoc, cutAt?_bar (by decide) (by decide)]
  simp only [column, noStatement, number, cut, value]
  rfl

example : ofText? "                   |    3: foo // bar" = some (.source 3 "foo // bar") := by
  cbv

end Listed

/-! ## The shown text of a line -/

namespace Line

theorem code_isInfix (line : Line) : line.code.toList <:+: line.raw.toList := by
  rw [code, String.toList_ofList]
  exact (trim_isInfix _).trans (fst_cutComment_isPrefix _).isInfix

theorem comment_isInfix {line : Line} {text : String} (found : line.comment? = some text) :
    text.toList <:+: line.raw.toList := by
  obtain ⟨comment, cut, rfl⟩ := Option.map_eq_some_iff.1 found
  rw [String.toList_ofList]
  exact (trim_isInfix comment).trans (isSuffix_of_snd_cutComment cut).isInfix

theorem trim_comment {line : Line} {text : String} (found : line.comment? = some text) :
    trim text.toList = text.toList := by
  obtain ⟨comment, _, rfl⟩ := Option.map_eq_some_iff.1 found
  rw [String.toList_ofList, trim_trim]

/-- What is listed of a comment, without its colours. An escape character in the comment may hide
characters behind it, but never the slashes. -/
theorem dropEscapes_comment (line : Line) :
    (line.comment? = none ∧ dropEscapes (Row.comment line).toList = []) ∨
      ∃ text rest, line.comment? = some text ∧
        dropEscapes (Row.comment line).toList = '/' :: '/' :: ' ' :: rest ∧
        ('\x1b' ∉ text.toList → rest = text.toList) := by
  rw [Row.comment]
  cases line.comment? with
  | none => exact Or.inl ⟨rfl, by rw [String.toList_empty, dropEscapes]⟩
  | some text =>
    have before := withoutEscapes_change {} { weight := .dim }
    have behind := withoutEscapes_change { weight := .dim } {}
    have slashes : WithoutEscapes "// ".toList ['/', '/', ' '] :=
      withoutEscapes_of_not_mem (by decide)
    have written : dropEscapes (Styled.dim ("// " ++ text)).render.toList =
        '/' :: '/' :: ' ' ::
          dropEscapes (text.toList ++ (Style.change { weight := .dim } {}).toList) := by
      simp only [Styled.dim, Styled.render, Styled.renderFrom, String.toList_append,
        List.append_assoc, before.dropEscapes_append, List.nil_append]
      exact slashes.dropEscapes_append _
    refine Or.inr ⟨text, _, rfl, written, fun absent => ?_⟩
    rw [(withoutEscapes_of_not_mem absent).dropEscapes_append, behind.dropEscapes_eq,
      List.append_nil]

variable {line shown : Line} {front : List Char}

/-- The words of a line are those of the text before its comment. -/
theorem words_shown (parted : ¬ ['/', '/'] <:+: front ++ ['/'])
    (spelt : shown.raw.toList = front ++ dropEscapes (Row.comment line).toList) :
    shown.words = (Text.words front).map String.ofList := by
  rw [words, spelt]
  rcases line.dropEscapes_comment with ⟨_, none⟩ | ⟨text, rest, _, written, _⟩
  · rw [none, List.append_nil, cutComment_of_no_slashes (no_slashes_of_concat parted)]
  · rw [written, cutComment_append parted]

/-- A comment is found again behind the text of a line. -/
theorem comment?_shown (parted : ¬ ['/', '/'] <:+: front ++ ['/'])
    (spelt : shown.raw.toList = front ++ dropEscapes (Row.comment line).toList)
    (free : '\x1b' ∉ line.raw.toList) : shown.comment? = line.comment? := by
  rw [comment?, spelt]
  rcases line.dropEscapes_comment with ⟨found, none⟩ | ⟨text, rest, found, written, same⟩
  · rw [none, List.append_nil, cutComment_of_no_slashes (no_slashes_of_concat parted), found]
    rfl
  · have inComment : '\x1b' ∉ text.toList :=
      fun member => free ((comment_isInfix found).subset member)
    rw [written, cutComment_append parted, same inComment, found, Option.map_some,
      trim_cons_blank rfl, trim_comment found, String.ofList_toList]

/-- Lines with the same words have the same command, or the same error. -/
theorem command_congr (same : shown.words = line.words) : shown.command = line.command := by
  rw [command_eq, command_eq, same]

theorem refusal?_of_command {parsed : Command} (read : line.command = .ok (some parsed)) :
    parsed.refusal? = none := by
  rcases line.command_cases with blank | ⟨command, found, accepted⟩ | ⟨error, failed, _⟩
  · rw [blank] at read
    cases read
  · rw [found] at read
    cases read
    exact accepted
  · rw [failed] at read
    cases read

/-- The slashes of a comment are the first ones behind the code of a line and a blank. -/
theorem code_parted (line : Line) : ¬ ['/', '/'] <:+: (line.code.toList ++ [' ']) ++ ['/'] := by
  refine no_slashes_concat_slash (fun slashes => ?_) (by decide)
  rw [code, String.toList_ofList] at slashes
  exact no_slashes_fst_cutComment _ (slashes.trans (trim_isInfix _))

end Line

namespace Row

/-! ## What is read of a row -/

theorem not_mem_leftOf (row : Row) {mark : Char} (noFigure : mark.isAlphanum = false)
    (other : mark ∉ ['-', '[', ']', ' ']) : mark ∉ row.leftOf.toList := by
  simp only [List.mem_cons, List.not_mem_nil, or_false, not_or] at other
  obtain ⟨noSign, noBegin, noEnd, noBlank⟩ := other
  have beside (width : Nat) : mark ∉ (padRight width "").toList :=
    not_mem_padRight List.not_mem_nil noBlank width
  cases row with
  | instruction address statement =>
    have inside := (isNumber_hexadecimal 4 address).not_mem noFigure noSign
    simp [leftOf, noBegin, noEnd, noBlank, inside, beside]
  | command _ _ | other _ | mark _ => exact beside 19

/-- Of the row of a statement its text is read. -/
theorem listed_of_statement? {row : Row} {statement : Statement}
    (shown : row.statement? = some statement)
    (free : ∀ s ∈ statement.strings, '\x1b' ∉ s.toList) :
    Listed.ofText? row.render = some (.statement statement.text) := by
  have noBar : '|' ∉ row.leftOf.toList := row.not_mem_leftOf (by decide) (by decide)
  have noEscape : '\x1b' ∉ row.leftOf.toList := row.not_mem_leftOf (by decide) (by decide)
  rw [render_of_statement? shown, Listed.ofText?_statement noBar noEscape,
    (Statement.withoutEscapes_render free).unstyled_eq]

/-- What is listed of the code of a line, without its colours. -/
def codeText : Row → List Char
  | .command _ parsed => parsed.styled.plain.toList ++ [' ']
  | .other line => if line.code.isEmpty then [] else line.code.toList ++ [' ']
  | .instruction .. | .mark _ => []

/-- No escape character in the source can hide the code of a line: there is a command in its place,
or there is none in the code. -/
def ShowsCode (row : Row) (line : Line) : Prop :=
  (∃ parsed, row = .command line parsed) ∨ '\x1b' ∉ line.code.toList

/-- Without its colours a line is listed by its code and its comment. -/
theorem dropEscapes_body {row : Row} {line : Line} (source : row.line? = some line)
    (showsCode : row.ShowsCode line) :
    dropEscapes row.body.toList = row.codeText ++ dropEscapes (comment line).toList := by
  have blank : WithoutEscapes " ".toList [' '] := withoutEscapes_of_not_mem (by decide)
  cases row with
  | command own parsed =>
    obtain rfl : own = line := Option.some.inj source
    have code := parsed.withoutEscapes_render
    rw [body, codeText, String.toList_append, String.toList_append, code.dropEscapes_append,
      blank.dropEscapes_append, List.append_assoc]
  | other own =>
    obtain rfl : own = line := Option.some.inj source
    rw [body, codeText]
    split
    · rfl
    · have plain : (Styled.plain (Styled.strong .red own.code)).toList = own.code.toList := by
        simp [Styled.plain, Styled.strong]
      have absent : '\x1b' ∉ (Styled.plain (Styled.strong .red own.code)).toList := by
        rw [plain]
        rcases showsCode with ⟨parsed, same⟩ | free
        · cases same
        · exact free
      have code := Text.withoutEscapes_render absent
      rw [plain] at code
      rw [String.toList_append, String.toList_append, code.dropEscapes_append,
        blank.dropEscapes_append, List.append_assoc]
  | instruction _ _ => cases source
  | mark _ => cases source

theorem codeText_parted {row : Row} {line : Line} (source : row.line? = some line) :
    ¬ ['/', '/'] <:+: row.codeText ++ ['/'] := by
  cases row with
  | command own parsed =>
    have noSlash : '/' ∉ parsed.styled.plain.toList := parsed.not_mem_plain (by decide) (by decide)
    have absent : ¬ ['/', '/'] <:+: parsed.styled.plain.toList :=
      fun slashes => noSlash (slashes.subset List.mem_cons_self)
    exact no_slashes_concat_slash absent (by decide)
  | other own =>
    rw [codeText]
    split
    · decide
    · exact own.code_parted
  | instruction _ _ => cases source
  | mark _ => cases source

/-- The code of a line is listed with the words of the line, or with those of its command. -/
theorem command_codeText {row : Row} {line shown : Line} (source : row.line? = some line)
    (read : ∀ parsed, row = .command line parsed → line.command = .ok (some parsed))
    (same : shown.words = (Text.words row.codeText).map String.ofList) :
    shown.command = line.command := by
  cases row with
  | command own parsed =>
    obtain rfl : own = line := Option.some.inj source
    have found := read parsed rfl
    rw [codeText, words_concat_blank rfl, parsed.words_styled,
      ← Line.words_text own.index parsed] at same
    rw [Line.command_congr same, Line.command_text, Line.refusal?_of_command found, found]
    rfl
  | other own =>
    obtain rfl : own = line := Option.some.inj source
    refine Line.command_congr (same.trans ?_)
    rw [codeText]
    split
    · next empty => rw [Line.isEmpty_code_iff.1 empty]; rfl
    · rw [words_concat_blank rfl, Line.map_words_code]
  | instruction _ _ => cases source
  | mark _ => cases source

/-- What is listed of a line reads as the line does: it has the same command, the same error or
nothing, and the same comment. -/
theorem exists_listed_of_line? {row : Row} {line : Line} (source : row.line? = some line)
    (read : ∀ parsed, row = .command line parsed → line.command = .ok (some parsed)) :
    ∃ text, Listed.ofText? row.render = some (.source line.number text) ∧
      (row.ShowsCode line → (Line.mk line.index text).command = line.command) ∧
      ('\x1b' ∉ line.raw.toList → (Line.mk line.index text).comment? = line.comment?) := by
  have parted := codeText_parted source
  have spelt (showsCode : row.ShowsCode line) :
      (unstyled row.body).toList = row.codeText ++ dropEscapes (comment line).toList := by
    rw [unstyled, String.toList_ofList, dropEscapes_body source showsCode]
  refine ⟨unstyled row.body, ?_, fun showsCode => ?_, fun free => ?_⟩
  · rw [render_of_line? source, Listed.ofText?_source]
  · exact command_codeText source read (Line.words_shown parted (spelt showsCode))
  · have showsCode : row.ShowsCode line :=
      Or.inr fun member => free (line.code_isInfix.subset member)
    exact Line.comment?_shown parted (spelt showsCode) free

/-- What a row shows is read off its text: a line by its number, a statement by its text. -/
theorem map_entry_listed {row : Row} (free : ∀ statement, row.statement? = some statement →
      ∀ s ∈ statement.strings, '\x1b' ∉ s.toList) :
    (Listed.ofText? row.render).map Listed.entry =
      some (row.shown.map Line.number Statement.text) := by
  cases shown : row.shown with
  | inl line =>
    have source : row.line? = some line := by rw [line?, shown, Sum.getLeft?_inl]
    rw [render_of_line? source, Listed.ofText?_source]
    rfl
  | inr statement =>
    have source : row.statement? = some statement := by rw [statement?, shown, Sum.getRight?_inr]
    rw [listed_of_statement? source (free statement source)]
    rfl

end Row

end Hack.VM
