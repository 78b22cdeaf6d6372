import Hack.Assembly.Printer
import Hack.Proofs.Assembly.Grammar
import Hack.Proofs.Rom.Acceptance
import Hack.Proofs.Text.Lines

/-!
Reading and assembling a program text.

Every line of a text is read by itself. `Reads` collects the statements of lines that can all be
read, and `Rom.TextFault` puts the first line that cannot be read before the faults of the program
that was read. A value that a line loads has fifteen bits (`value_le_of_reads`).
-/

namespace Hack

open Assembly

namespace Assembly

/-- The statements on the given lines, in order; a blank line has none. -/
inductive Reads : List String → Program → Prop
  | nil : Reads [] []
  | blank {line : String} {lines : List String} {program : Program} :
    readLine line = .ok none → Reads lines program → Reads (line :: lines) program
  | statement {line : String} {lines : List String} {statement : Statement} {program : Program} :
    readLine line = .ok (some statement) → Reads lines program →
    Reads (line :: lines) (statement :: program)

theorem Reads.append {front back : List String} {program rest : Program}
    (reads : Reads front program) (later : Reads back rest) :
    Reads (front ++ back) (program ++ rest) := by
  induction reads with
  | nil => exact later
  | blank read _ ih => exact .blank read ih
  | statement read _ ih => exact .statement read ih

theorem Reads.readLine_of_mem {lines : List String} {program : Program}
    (reads : Reads lines program) {line : String} (member : line ∈ lines) :
    ∃ content, readLine line = .ok content := by
  induction reads with
  | nil => cases member
  | blank read _ ih =>
    rcases List.mem_cons.1 member with rfl | later
    · exact ⟨_, read⟩
    · exact ih later
  | statement read _ ih =>
    rcases List.mem_cons.1 member with rfl | later
    · exact ⟨_, read⟩
    · exact ih later

/-! ## Lines and their numbers -/

/-- Either all lines can be read, or there is a first one that cannot. -/
theorem reads_or_bad (lines : List String) :
    (∃ program, Reads lines program) ∨
      ∃ front program line back cause, lines = front ++ line :: back ∧ Reads front program ∧
        readLine line = .error cause := by
  induction lines with
  | nil => exact Or.inl ⟨[], .nil⟩
  | cons line lines ih =>
    cases read : readLine line with
    | error cause => exact Or.inr ⟨[], [], line, lines, cause, rfl, .nil, read⟩
    | ok found =>
      have extend {front : List String} {program : Program} (reads : Reads front program) :
          ∃ longer, Reads (line :: front) longer := by
        cases found with
        | none => exact ⟨program, .blank read reads⟩
        | some statement => exact ⟨statement :: program, .statement read reads⟩
      rcases ih with ⟨program, reads⟩ | ⟨front, program, bad, back, cause, rfl, reads, failed⟩
      · exact Or.inl (extend reads)
      · rcases extend reads with ⟨longer, reads⟩
        exact Or.inr ⟨line :: front, longer, bad, back, cause, rfl, reads, failed⟩

/-! ## Values -/

theorem value_le_of_readCode {code : List Char} {value : Word}
    (read : readCode code = .ok (some (.load (.value value)))) :
    value.toNat ≤ Word.maxLiteral := by
  cases readCode_eq_some_iff.1 read with
  | load operand =>
    cases operand with
    | value _ fits => exact fits

theorem value_le_of_reads {lines : List String} {program : Program} (reads : Reads lines program)
    {value : Word} (member : .load (.value value) ∈ program) : value.toNat ≤ Word.maxLiteral := by
  induction reads with
  | nil => cases member
  | blank _ _ ih => exact ih member
  | statement found _ ih =>
    rcases List.mem_cons.1 member with rfl | later
    · exact value_le_of_readCode found
    · exact ih later

/-! ## Printed programs -/

theorem Program.toList_text (program : Program) :
    program.text.toList =
      (program.map Statement.text).flatMap fun line => line.toList ++ ['\n'] := by
  suffices behind : ∀ start : String,
      (program.foldl (fun text statement => text ++ statement.text ++ "\n") start).toList =
        start.toList ++ (program.map Statement.text).flatMap fun line => line.toList ++ ['\n'] from
    behind ""
  intro start
  induction program generalizing start with
  | nil => exact (List.append_nil _).symm
  | cons statement rest ih =>
    rw [List.foldl_cons, ih, List.map_cons, List.flatMap_cons, String.toList_append,
      String.toList_append, List.append_assoc, List.append_assoc, List.append_assoc]
    rfl

theorem reads_map_text {program : Program}
    (printed : ∀ statement ∈ program, readLine statement.text = .ok (some statement)) :
    Reads (program.map Statement.text) program := by
  induction program with
  | nil => exact .nil
  | cons statement rest ih =>
    exact .statement (printed statement List.mem_cons_self)
      (ih fun other member => printed other (.tail _ member))

/-- A printed program is read back if each of its statements is, and is printed on one line. -/
theorem reads_text {program : Program}
    (printed : ∀ statement ∈ program,
      Text.IsLine statement.text.toList ∧ readLine statement.text = .ok (some statement)) :
    Reads (Text.lines program.text) program := by
  have areLines : ∀ line ∈ program.map Statement.text, Text.IsLine line.toList := by
    intro line member
    rcases List.mem_map.1 member with ⟨statement, known, rfl⟩
    exact (printed statement known).1
  rw [Text.lines, program.toList_text, Text.linesFrom_flatMap areLines]
  exact reads_map_text fun statement known => (printed statement known).2

end Assembly

namespace Rom

/-- Lines that can be read are read, one number after the other. -/
theorem readLinesFrom_of_reads (path : String) {lines : List String} {program : Program}
    (reads : Reads lines program) (number : Nat) (read : Program) (rest : List String) :
    readLinesFrom path number read (lines ++ rest) =
      readLinesFrom path (number + lines.length) (program.reverse ++ read) rest := by
  induction reads generalizing number read with
  | nil => rfl
  | blank blank _ ih =>
    rw [List.cons_append, readLinesFrom, blank]
    dsimp only
    rw [ih, List.length_cons, Nat.succ_add_eq_add_succ]
  | statement found _ ih =>
    rw [List.cons_append, readLinesFrom, found]
    dsimp only
    rw [ih, List.length_cons, Nat.succ_add_eq_add_succ, List.reverse_cons, List.append_assoc]
    rfl

theorem readProgram_of_reads (path : String) {text : String} {program : Program}
    (reads : Reads (Text.lines text) program) : readProgram path text = .ok program := by
  have read := readLinesFrom_of_reads path reads 1 [] []
  rw [List.append_nil, List.append_nil, readLinesFrom, List.reverse_reverse] at read
  exact read

/-- The first line that cannot be read is reported with its number. -/
theorem readProgram_of_bad (path : String) {text line : String} {front back : List String}
    {program : Program} {cause : SyntaxError} (split : Text.lines text = front ++ line :: back)
    (reads : Reads front program) (failed : readLine line = .error cause) :
    readProgram path text =
      .error (.badLine (path ++ ":" ++ toString (front.length + 1)) cause) := by
  rw [readProgram, split, readLinesFrom_of_reads path reads, readLinesFrom, failed,
    Nat.add_comm front.length]

/-- The error for a text that is not a program, or not one that can be assembled. -/
inductive TextFault (path text : String) : AssembleError → Prop
  /-- The line is the first one that cannot be read. -/
  | badLine {front back : List String} {earlier : Program} {line : String} {cause : SyntaxError} :
    Text.lines text = front ++ line :: back → Reads front earlier → readLine line = .error cause →
    TextFault path text (.badLine (path ++ ":" ++ toString (front.length + 1)) cause)
  /-- The program in the text cannot be assembled. -/
  | program {program : Program} {error : AssembleError} :
    Reads (Text.lines text) program → program.Fault error → TextFault path text error

theorem readProgram_eq_ok_iff {path text : String} {program : Program} :
    readProgram path text = .ok program ↔ Reads (Text.lines text) program := by
  refine ⟨fun read => ?_, readProgram_of_reads path⟩
  rcases reads_or_bad (Text.lines text) with
    ⟨other, reads⟩ | ⟨front, other, line, back, cause, split, reads, failed⟩
  · rw [readProgram_of_reads path reads] at read
    cases read
    exact reads
  · rw [readProgram_of_bad path split reads failed] at read
    cases read

theorem ofText_eq_ok_iff {path text : String} {rom : Rom} :
    ofText path text = .ok rom ↔
      ∃ program, Reads (Text.lines text) program ∧ assemble program = .ok rom := by
  constructor
  · intro accepted
    unfold ofText at accepted
    split at accepted
    · cases accepted
    · next program read => exact ⟨program, readProgram_eq_ok_iff.1 read, accepted⟩
  · rintro ⟨program, reads, assembled⟩
    simp only [ofText, readProgram_of_reads path reads, assembled]

theorem ofText_of_textFault {path text : String} {error : AssembleError}
    (fault : TextFault path text error) : ofText path text = .error error := by
  cases fault with
  | badLine split reads failed => simp only [ofText, readProgram_of_bad path split reads failed]
  | program reads fault =>
    simp only [ofText, readProgram_of_reads path reads, assemble_of_fault fault]

theorem ofText_eq_error_iff {path text : String} {error : AssembleError} :
    ofText path text = .error error ↔ TextFault path text error := by
  refine ⟨fun failed => ?_, ofText_of_textFault⟩
  rcases reads_or_bad (Text.lines text) with
    ⟨program, reads⟩ | ⟨front, program, line, back, cause, split, reads, bad⟩
  · rw [ofText, readProgram_of_reads path reads] at failed
    exact .program reads (assemble_eq_error_iff.1 failed)
  · rw [ofText, readProgram_of_bad path split reads bad] at failed
    cases failed
    exact .badLine split reads bad

theorem exists_ofText_iff {path text : String} :
    (∃ rom, ofText path text = .ok rom) ↔
      ∃ program, Reads (Text.lines text) program ∧ program.Assemblable := by
  simp only [ofText_eq_ok_iff]
  constructor
  · rintro ⟨rom, program, reads, assembled⟩
    exact ⟨program, reads, exists_assemble_iff.1 ⟨rom, assembled⟩⟩
  · rintro ⟨program, reads, assemblable⟩
    rcases exists_assemble_of_assemblable assemblable with ⟨rom, assembled⟩
    exact ⟨rom, program, reads, assembled⟩

/-- **The assembler fails exactly when it must.** A program is assembled if it has no fault, and
otherwise its one fault is reported; the text of a program has the faults of its lines before. The
limit that a program that is too long runs into is the one that its error names. -/
theorem fails_exactly :
    (∀ program error, assemble program = .error error ↔ program.Fault error) ∧
    (∀ program, (∃ rom, assemble program = .ok rom) ↔ program.Assemblable) ∧
    (∀ path text error, ofText path text = .error error ↔ TextFault path text error) ∧
    (∀ path text, (∃ rom, ofText path text = .ok rom) ↔
      ∃ program, Reads (Text.lines text) program ∧ program.Assemblable) ∧
    MemoryMap.romSize = 32768 ∧ Program.variableCells = 240 ∧
    AssembleError.romOverflow.message = "Program does not fit in 32768 ROM words" := by
  refine ⟨?_, ?_, ?_, ?_, rfl, rfl, rfl⟩
  · intro program error
    exact assemble_eq_error_iff
  · intro program
    exact exists_assemble_iff
  · intro path text error
    exact ofText_eq_error_iff
  · intro path text
    exact exists_ofText_iff

end Rom

end Hack
