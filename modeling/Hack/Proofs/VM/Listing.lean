import Hack.Proofs.Rom.Acceptance
import Hack.Proofs.VM.Accounts
import Hack.Proofs.VM.Rendering
import Hack.Proofs.VM.Rows
import Mathlib.Data.List.Sort

/-!
What a listing shows of a unit and its compilation.

A listing is made in one pass over the lines, with the blocks beside it: a line takes the next block
if that is its own, and if some line failed to take its block all later blocks would be lost. They
are not, because the blocks stand in the order of their lines (`Shows.foldl_addLine`). What is shown
so far is the invariant of the pass (`Listing.Shows`): the address that is counted beside it is
always the number of words of the statements above, which is where the assembler puts the next
instruction.

What the rows show is read off their text again: the numbers of the lines and what stands behind
them, the statements, and the addresses in brackets. So what is said of a listing (`ShownBy`) is said
of the page on which it is printed.
-/

namespace Hack.VM

open Assembly Text

namespace Listing

/-- The number of instruction words of the statements that are shown. -/
def wordsOf (shown : List (Line ⊕ Statement)) : Nat :=
  Program.wordCount (shown.filterMap Sum.getRight?)

theorem wordsOf_line (shown : List (Line ⊕ Statement)) (line : Line) :
    wordsOf (shown ++ [.inl line]) = wordsOf shown := by
  rw [wordsOf, List.filterMap_append, Program.wordCount_append]
  rfl

theorem wordsOf_statement (shown : List (Line ⊕ Statement)) (statement : Statement) :
    wordsOf (shown ++ [.inr statement]) = wordsOf shown + statement.words := by
  rw [wordsOf, List.filterMap_append, Program.wordCount_append]
  exact congrArg (wordsOf shown + ·) (Program.wordCount_cons statement [])

/-- What is shown for a line: the line itself, and the code of its blocks. -/
def entries (line : Line) (own : List Block) : List (Line ⊕ Statement) :=
  .inl line :: (own.flatMap Block.code).map .inr

/-- The part of a listing that is done shows some lines and statements, every line as a line with
its own blocks and every instruction beside the number of words above it. -/
structure Shows (own : Line → List Block) (done : List (Line ⊕ Statement))
    (listing : Listing) : Prop where
  shown : listing.rows.toList.map Row.shown = done
  told : ∀ row ∈ listing.rows.toList, ∀ line, row.line? = some line →
    row = Row.ofLine line (own line)
  addressed : ∀ front row back, listing.rows.toList = front ++ row :: back →
    row.StandsAt (wordsOf (front.map Row.shown))
  address : listing.address = wordsOf done

/-! ## One row, one line, all lines -/

theorem split_concat {α : Type} {xs front back : List α} {x y : α}
    (split : xs ++ [x] = front ++ y :: back) :
    (xs = front ∧ x = y) ∨ ∃ rest, xs = front ++ y :: rest := by
  rcases List.eq_nil_or_concat back with rfl | ⟨rest, last, rfl⟩
  · obtain ⟨same, ends⟩ := List.append_inj' split rfl
    exact Or.inl ⟨same, List.singleton_inj.1 ends⟩
  · rw [List.concat_eq_append, ← List.cons_append, ← List.append_assoc] at split
    exact Or.inr ⟨rest, (List.append_inj' split rfl).1⟩

variable {own : Line → List Block} {done : List (Line ⊕ Statement)} {listing : Listing}

theorem shows_start (blocks : List Block) : Shows own [] { blocks } where
  shown := rfl
  told _ member := absurd member List.not_mem_nil
  addressed := by
    intro front row back split
    have empty : front ++ row :: back = [] := split.symm
    exact absurd empty (List.append_ne_nil_of_right_ne_nil front (List.cons_ne_nil row back))
  address := rfl

/-- One row more, and the address behind it. -/
theorem Shows.push (shows : listing.Shows own done) (row : Row) (address : Nat)
    (blocks : List Block) (told : ∀ line, row.line? = some line → row = Row.ofLine line (own line))
    (stands : row.StandsAt listing.address) (counted : address = wordsOf (done ++ [row.shown])) :
    Shows own (done ++ [row.shown]) { rows := listing.rows.push row, address, blocks } where
  shown := by
    rw [Array.toList_push, List.map_append, shows.shown]
    rfl
  told := by
    intro other member
    rw [Array.toList_push] at member
    rcases List.mem_append.1 member with before | last
    · exact shows.told other before
    · rw [List.mem_singleton.1 last]
      exact told
  addressed := by
    intro front other back split
    rw [Array.toList_push] at split
    rcases split_concat split with ⟨rfl, rfl⟩ | ⟨rest, before⟩
    · rw [shows.shown, ← shows.address]
      exact stands
    · exact shows.addressed front other rest before
  address := counted

/-- A statement is shown beside the address of the next instruction, and counted if it is one. -/
theorem Shows.addStatement (shows : listing.Shows own done) (statement : Statement) :
    (listing.addStatement statement).Shows own (done ++ [.inr statement]) := by
  have counted := wordsOf_statement done statement
  rw [← shows.address, Statement.words] at counted
  unfold Listing.addStatement
  split
  · next isInstruction =>
    rw [if_pos isInstruction] at counted
    exact shows.push (.instruction listing.address statement) _ _ nofun
      (if_pos isInstruction).symm counted.symm
  · next isMark =>
    rw [if_neg isMark] at counted
    exact shows.push (.mark statement) _ _ nofun (if_neg isMark).symm counted.symm

theorem Shows.foldl_addStatement (shows : listing.Shows own done) (code : Program) :
    (code.foldl Listing.addStatement listing).Shows own (done ++ code.map .inr) := by
  induction code generalizing listing done with
  | nil => rwa [List.map_nil, List.append_nil]
  | cons statement code ih =>
    have behind := ih (shows.addStatement statement)
    rwa [List.append_assoc] at behind

theorem blocks_foldl_addStatement (listing : Listing) (code : Program) :
    (code.foldl Listing.addStatement listing).blocks = listing.blocks := by
  induction code generalizing listing with
  | nil => rfl
  | cons statement code ih =>
    rw [List.foldl_cons, ih]
    unfold Listing.addStatement
    split <;> rfl

/-- A line takes its own block, if it has one, and leaves the blocks of the later lines. -/
theorem addLine_eq {line : Line} {mine later : List Block} (next : listing.blocks = mine ++ later)
    (single : mine.length ≤ 1) (keyed : ∀ block ∈ mine, block.index = line.index)
    (foreign : ∀ block ∈ later, block.index ≠ line.index) :
    listing.addLine line =
      (mine.flatMap Block.code).foldl Listing.addStatement
        { listing with rows := listing.rows.push (Row.ofLine line mine), blocks := later } := by
  unfold Listing.addLine
  rcases mine with _ | ⟨block, _ | _⟩
  · rw [List.nil_append] at next
    cases later with
    | nil =>
      simp [next, Row.ofLine]
    | cons block later =>
      simp [next, Row.ofLine, foreign block List.mem_cons_self]
  · simp [next, Row.ofLine, keyed block List.mem_cons_self]
  · simp at single

theorem Shows.addLine (shows : listing.Shows own done) {line : Line} {later : List Block}
    (next : listing.blocks = own line ++ later) (single : (own line).length ≤ 1)
    (keyed : ∀ block ∈ own line, block.index = line.index)
    (foreign : ∀ block ∈ later, block.index ≠ line.index) :
    (listing.addLine line).Shows own (done ++ entries line (own line)) ∧
      (listing.addLine line).blocks = later := by
  rw [addLine_eq next single keyed foreign, blocks_foldl_addStatement]
  have told (other : Line) (same : (Row.ofLine line (own line)).line? = some other) :
      Row.ofLine line (own line) = Row.ofLine other (own other) := by
    rw [Row.line?, Row.shown_ofLine] at same
    cases same
    rfl
  have head := shows.push _ listing.address later told (Row.standsAt_ofLine _ line _)
    (by rw [Row.shown_ofLine, wordsOf_line, shows.address])
  have both := head.foldl_addStatement ((own line).flatMap Block.code)
  rw [Row.shown_ofLine, List.append_assoc] at both
  exact ⟨both, rfl⟩

/-- The pass over lines with increasing places and the blocks of these lines shows every line with
its block behind it. -/
theorem Shows.foldl_addLine {lines : List Line} (shows : listing.Shows own done)
    (next : listing.blocks = lines.flatMap own) (single : ∀ line ∈ lines, (own line).length ≤ 1)
    (keyed : ∀ line, ∀ block ∈ own line, block.index = line.index)
    (increasing : lines.Pairwise fun line later => line.index < later.index) :
    (lines.foldl Listing.addLine listing).Shows own
      (done ++ lines.flatMap fun line => entries line (own line)) := by
  induction lines generalizing listing done with
  | nil => rwa [List.flatMap_nil, List.append_nil]
  | cons line lines ih =>
    obtain ⟨before, increasing⟩ := List.pairwise_cons.1 increasing
    have foreign : ∀ block ∈ lines.flatMap own, block.index ≠ line.index := by
      intro block member
      obtain ⟨later, inLines, itsOwn⟩ := List.mem_flatMap.1 member
      rw [keyed later block itsOwn]
      exact (Nat.ne_of_lt (before later inLines)).symm
    obtain ⟨first, rest⟩ :=
      shows.addLine next (single line List.mem_cons_self) (keyed line) foreign
    have all := ih first rest (fun later inLines => single later (.tail _ inLines)) increasing
    rwa [List.append_assoc] at all

/-! ## Lines and statements apart -/

theorem lines_of_entries (own : Line → List Block) (lines : List Line) :
    (lines.flatMap fun line => entries line (own line)).filterMap Sum.getLeft? = lines := by
  induction lines with
  | nil => rfl
  | cons line lines ih =>
    have alone : (entries line (own line)).filterMap Sum.getLeft? = [line] := by
      rw [entries, List.filterMap_cons, List.filterMap_map]
      exact congrArg (line :: ·) (List.filterMap_eq_nil_iff.2 fun _ _ => rfl)
    rw [List.flatMap_cons, List.filterMap_append, alone, ih]
    rfl

theorem statements_of_entries (own : Line → List Block) (lines : List Line) :
    (lines.flatMap fun line => entries line (own line)).filterMap Sum.getRight? =
      (lines.flatMap own).flatMap Block.code := by
  induction lines with
  | nil => rfl
  | cons line lines ih =>
    have alone : (entries line (own line)).filterMap Sum.getRight? =
        (own line).flatMap Block.code := by
      rw [entries, List.filterMap_cons, List.filterMap_map]
      exact List.filterMap_some
    rw [List.flatMap_cons, List.filterMap_append, alone, ih, List.flatMap_cons,
      List.flatMap_append]

end Listing

/-! ## The listing of a unit -/

namespace Compilation

theorem index_of_mem_blocksAt {c : Compilation} {index : Nat} {block : Block}
    (member : block ∈ c.blocksAt index) : block.index = index :=
  beq_iff_eq.1 (List.mem_filter.1 member).2

end Compilation

namespace SourceUnit

open Compilation

/-- The blocks are those of the lines, one line after the other. -/
theorem flatMap_blocksAt (unit : SourceUnit) :
    unit.lines.flatMap (fun line => unit.compile.blocksAt line.index) =
      unit.compile.blocks.toList := by
  have irreflexive : Std.Irrefl fun block later : Block => block.index < later.index :=
    ⟨fun _ => Nat.lt_irrefl _⟩
  have antisymmetric : Std.Antisymm fun block later : Block => block.index < later.index :=
    ⟨fun _ _ before after => absurd before (Nat.lt_asymm after)⟩
  -- both lists are in the order of the places, so it is enough that they have the same blocks
  refine List.Pairwise.eq_of_mem_iff ?_ unit.pairwise_blocks_compile ?_
  · refine List.pairwise_flatMap.2 ⟨fun line _ => ?_, ?_⟩
    · exact unit.pairwise_blocks_compile.sublist List.filter_sublist
    · apply unit.pairwise_index_lines.imp
      intro line later before block inLine other inLater
      rw [index_of_mem_blocksAt inLine, index_of_mem_blocksAt inLater]
      exact before
  · intro block
    rw [List.mem_flatMap]
    constructor
    · rintro ⟨line, _, own⟩
      exact List.mem_of_mem_filter own
    · intro member
      have place : block.index ∈ unit.lines.map Line.index := by
        rw [map_index_lines, List.mem_range]
        exact index_lt_of_mem_blocks (Array.mem_toList_iff.1 member)
      obtain ⟨line, inUnit, same⟩ := List.mem_map.1 place
      exact ⟨line, inUnit, List.mem_filter.2 ⟨member, beq_iff_eq.2 same.symm⟩⟩

theorem length_blocksAt_le {unit : SourceUnit} {line : Line} (member : line ∈ unit.lines) :
    (unit.compile.blocksAt line.index).length ≤ 1 := by
  have lengths := congrArg List.length (map_item_blocksAt member)
  rw [List.length_map] at lengths
  rw [lengths]
  exact Option.length_toList_le

/-- The block of a line has the command of the line. -/
theorem command_of_blocksAt {unit : SourceUnit} {line : Line} (member : line ∈ unit.lines)
    {block : Block} (own : block ∈ unit.compile.blocksAt line.index) :
    line.command = .ok (some block.command) := by
  have item : (block.index, block.command) ∈ line.item?.toList := by
    rw [← map_item_blocksAt member]
    exact List.mem_map_of_mem own
  obtain ⟨command, read, _, same⟩ := Line.item?_eq_some_iff.1 (Option.mem_toList.1 item)
  rw [(Prod.mk.inj same).2]
  exact read

/-- The rows of a unit as its pass leaves them. -/
theorem shows_rows (unit : SourceUnit) :
    (unit.lines.foldl Listing.addLine { blocks := unit.compile.blocks.toList }).Shows
      (fun line => unit.compile.blocksAt line.index)
      (unit.lines.flatMap fun line =>
        Listing.entries line (unit.compile.blocksAt line.index)) :=
  (Listing.shows_start _).foldl_addLine unit.flatMap_blocksAt.symm
    (fun _ member => length_blocksAt_le member) (fun _ _ own => index_of_mem_blocksAt own)
    unit.pairwise_index_lines

theorem map_number_lines (unit : SourceUnit) :
    unit.lines.map Line.number = List.range' 1 unit.lines.length := by
  have places := congrArg (List.map (1 + ·)) unit.map_index_lines
  rw [List.map_map, List.range_eq_range', List.map_add_range'] at places
  rw [← places]
  exact List.map_congr_left fun line _ => Nat.add_comm line.index 1

/-- The statements of a unit have names only, in which no escape character stands. -/
theorem escape_not_mem_strings (unit : SourceUnit) {statement : Statement}
    (member : statement ∈ unit.compile.program) :
    ∀ s ∈ statement.strings, '\x1b' ∉ s.toList :=
  Statement.escape_not_mem_of_isWellFormed (List.all_eq_true.1 (isWellFormed_compile unit) _ member)

/-- What the rows of a listing show of a unit. -/
structure ShownBy (unit : SourceUnit) (rows : List Row) : Prop where
  /-- One line after the other, each with the code of its own block right behind it and nothing
  else. -/
  order : rows.map Row.shown = unit.lines.flatMap fun line =>
    .inl line :: ((unit.compile.blocksAt line.index).flatMap Block.code).map .inr
  /-- This is also what is read off the printed rows: the number of the line, counted from one, and
  right behind it the texts of its code. -/
  page : (rows.map Row.render).map (fun text => (Listed.ofText? text).map Listed.entry) =
    (unit.lines.flatMap fun line => .inl (line.index + 1) ::
      ((unit.compile.blocksAt line.index).flatMap Block.code).map fun statement =>
        .inr statement.text).map some
  /-- No line has two blocks. -/
  single : ∀ line ∈ unit.lines, (unit.compile.blocksAt line.index).length ≤ 1
  /-- All lines are there, once each, with the numbers from one on. -/
  lines : rows.filterMap Row.line? = unit.lines
  numbers : unit.lines.map Line.number = List.range' 1 unit.lines.length
  /-- Behind the number of a line stands a text that is the same command, the same error or nothing,
  and has the same comment, unless an escape character in the source hides some of it. -/
  numbered : ∀ row ∈ rows, ∀ line, row.line? = some line →
    ∃ text, Listed.ofText? row.render = some (.source (line.index + 1) text) ∧
      (row.ShowsCode line → (Line.mk line.index text).command = line.command) ∧
      ('\x1b' ∉ line.raw.toList → (Line.mk line.index text).comment? = line.comment?)
  /-- A line with a block is shown as its command, and only such a line is. -/
  command : ∀ line command, .command line command ∈ rows →
    line.command = .ok (some command) ∧
      ∃ code, unit.compile.blocksAt line.index = [⟨line.index, command, code⟩]
  other : ∀ line, .other line ∈ rows → unit.compile.blocksAt line.index = []
  /-- All statements that are there are the code of the unit, and they are printed as their texts. -/
  program : rows.filterMap Row.statement? = unit.compile.program
  spelt : ∀ row ∈ rows, ∀ statement, row.statement? = some statement →
    Listed.ofText? row.render = some (.statement statement.text)
  /-- In brackets beside an instruction stands the number of instructions above it; beside anything
  else nothing does. -/
  brackets : ∀ front row back, rows = front ++ row :: back →
    bracketedAddress? row.render =
      if row.statement?.any Statement.isInstruction then
        some (Program.wordCount (front.filterMap Row.statement?))
      else none

theorem shownBy_rows (unit : SourceUnit) : unit.ShownBy (unit.rows unit.compile).toList := by
  have shows := unit.shows_rows
  have lines : (unit.rows unit.compile).toList.filterMap Row.line? = unit.lines := by
    rw [← Listing.lines_of_entries (fun line => unit.compile.blocksAt line.index) unit.lines,
      ← shows.shown, List.filterMap_map]
    rfl
  have program : (unit.rows unit.compile).toList.filterMap Row.statement? =
      unit.compile.program := by
    have statements := Listing.statements_of_entries
      (fun line => unit.compile.blocksAt line.index) unit.lines
    rw [← shows.shown, List.filterMap_map, unit.flatMap_blocksAt] at statements
    exact statements
  have told {row : Row} (member : row ∈ (unit.rows unit.compile).toList) {line : Line}
      (source : row.line? = some line) :
      line ∈ unit.lines ∧ row = Row.ofLine line (unit.compile.blocksAt line.index) :=
    ⟨lines ▸ List.mem_filterMap.2 ⟨row, member, source⟩, shows.told row member line source⟩
  have commanded {line : Line} {command : Command}
      (member : .command line command ∈ (unit.rows unit.compile).toList) :
      line.command = .ok (some command) ∧
        ∃ code, unit.compile.blocksAt line.index = [⟨line.index, command, code⟩] := by
    obtain ⟨inUnit, same⟩ := told member rfl
    obtain ⟨block, own, rfl⟩ := Row.exists_block_of_ofLine same.symm (length_blocksAt_le inUnit)
    have mine : block ∈ unit.compile.blocksAt line.index := by
      rw [own]
      exact List.mem_singleton_self block
    refine ⟨command_of_blocksAt inUnit mine, block.code, ?_⟩
    rw [own, ← index_of_mem_blocksAt mine]
  have free {row : Row} (member : row ∈ (unit.rows unit.compile).toList) (statement : Statement)
      (shown : row.statement? = some statement) : ∀ s ∈ statement.strings, '\x1b' ∉ s.toList :=
    unit.escape_not_mem_strings (program ▸ List.mem_filterMap.2 ⟨row, member, shown⟩)
  exact
    { order := shows.shown
      page := by
        have read := List.map_congr_left fun row member => Row.map_entry_listed (free member)
        have entries := congrArg (List.map fun entry => some (entry.map Line.number Statement.text))
          shows.shown
        rw [List.map_map] at entries ⊢
        refine read.trans (entries.trans ?_)
        rw [List.map_flatMap, List.map_flatMap]
        simp [Listing.entries, Function.comp_def, Line.number]
      single := fun _ member => length_blocksAt_le member
      lines := lines
      numbers := unit.map_number_lines
      numbered := by
        intro row member line source
        refine Row.exists_listed_of_line? source fun parsed same => ?_
        rw [same] at member
        exact (commanded member).1
      command := fun _ _ => commanded
      other := by
        intro line member
        obtain ⟨_, same⟩ := told member rfl
        exact Row.eq_nil_of_ofLine same.symm
      program := program
      spelt := fun _ member statement shown =>
        Row.listed_of_statement? shown (free member statement shown)
      brackets := by
        intro front row back split
        have beside := shows.addressed front row back split
        rw [Listing.wordsOf, List.filterMap_map] at beside
        exact row.bracketedAddress?_render.trans beside }

/-- Where the brackets say that an instruction is, it is when the code is assembled. -/
theorem ShownBy.get?_of_bracketedAddress? {unit : SourceUnit} {rows : List Row}
    (shown : unit.ShownBy rows) {rom : Rom}
    (assembled : Rom.assemble unit.compile.program = .ok rom) {row : Row} (member : row ∈ rows)
    {statement : Statement} {address : Nat} (source : row.statement? = some statement)
    (beside : bracketedAddress? row.render = some address) :
    ∃ instr, statement.link? rom.addressOf? = some instr ∧ rom.get? address = some instr := by
  obtain ⟨front, back, rfl⟩ := List.append_of_mem member
  have above := shown.brackets front row back rfl
  rw [beside, source, Option.any_some] at above
  split at above
  · next isInstruction =>
    cases above
    have split := shown.program
    rw [List.filterMap_append, List.filterMap_cons_some source] at split
    exact Rom.get?_of_assemble assembled split.symm isInstruction
  · cases above

/-- **A listing shows the program.** It has a head with the path, a row for every line and every
statement of the code, and a foot. On the page the lines stand in their order with their numbers,
each with the code of its own block behind it; the statements together are the code of the unit; and
the address that is printed beside an instruction is the one that the assembler gives it. -/
theorem listing_shows_program (unit : SourceUnit) :
    (∃ head foot, unit.path.toList <:+: head.toList ∧ unit.listing unit.compile =
        head :: (unit.rows unit.compile).toList.map Row.render ++ [foot]) ∧
      unit.ShownBy (unit.rows unit.compile).toList ∧
      ∀ rom, Rom.assemble unit.compile.program = .ok rom →
        ∀ row ∈ unit.rows unit.compile, ∀ statement address, row.statement? = some statement →
          bracketedAddress? row.render = some address →
            ∃ instr, statement.link? rom.addressOf? = some instr ∧
              rom.get? address = some instr := by
  have inHead (front back : String) :
      unit.path.toList <:+: (front ++ unit.path ++ back).toList := by
    rw [String.toList_append, String.toList_append]
    exact List.infix_append front.toList unit.path.toList back.toList
  refine ⟨⟨_, _, ?_, rfl⟩, unit.shownBy_rows, ?_⟩
  · rw [String.append_assoc]
    exact inHead _ _
  intro rom assembled row member statement address
  exact unit.shownBy_rows.get?_of_bracketedAddress? assembled (Array.mem_toList_iff.2 member)

end SourceUnit

/-- Four lines are listed, and behind the first one, which alone has a block, seven statements. Its
command, its comment and the fault of the third line are read off the page, and the last instruction
stands beside its address. -/
theorem listing_shows_program_sampleFaults :
    (((sampleFaults.rows sampleFaults.compile).toList.map Row.render).map fun text =>
      (Listed.ofText? text).map Listed.entry) =
        ([.inl 1, .inr "@14", .inr "D=M", .inr "@SP", .inr "A=M", .inr "M=D", .inr "@SP",
          .inr "M=M+1", .inl 2, .inl 3, .inl 4] : List (Nat ⊕ String)).map some ∧
    (∃ text, Listed.ofText?
        (Row.command ⟨0, "push temp 9 // far"⟩ (.move .push .temp 9)).render =
          some (.source 1 text) ∧
      (Line.mk 0 text).command = .ok (some (.move .push .temp 9)) ∧
      (Line.mk 0 text).comment? = some "far") ∧
    (∃ text, Listed.ofText? (Row.other ⟨2, "foo"⟩).render = some (.source 3 text) ∧
      (Line.mk 2 text).command = .error (.unknownCommand "foo")) ∧
    ∃ rom, Rom.assemble sampleFaults.compile.program = .ok rom ∧
      .instruction 6 (.set { m := true } (.yPlusOne .m)) ∈ sampleFaults.rows sampleFaults.compile ∧
      rom.get? 6 = some (.compute { m := true } (.yPlusOne .m) .never) := by
  have program : sampleFaults.compile.program =
      [.value 14, .set { d := true } (.y .m), .register .sp, .set { a := true } (.y .m),
        .set { m := true } .d, .register .sp, .set { m := true } (.yPlusOne .m)] := by
    decide +kernel
  obtain ⟨rom, assembled⟩ : ∃ rom, Rom.assemble sampleFaults.compile.program = .ok rom := by
    rw [program]
    exact Rom.exists_assemble (by decide) (by decide) (by decide)
  have member : .instruction 6 (.set { m := true } (.yPlusOne .m)) ∈
      sampleFaults.rows sampleFaults.compile := by
    decide +kernel
  obtain ⟨_, shown, addresses⟩ := SourceUnit.listing_shows_program sampleFaults
  refine ⟨?_, ?_, ?_, rom, assembled, member, ?_⟩
  · rw [shown.page]
    decide +kernel
  · obtain ⟨text, listed, command, comment⟩ :=
      shown.numbered (.command ⟨0, "push temp 9 // far"⟩ (.move .push .temp 9))
        (by decide +kernel) _ rfl
    exact ⟨text, listed, (command (Or.inl ⟨_, rfl⟩)).trans (by decide +kernel),
      (comment (by decide)).trans (by decide +kernel)⟩
  · obtain ⟨text, listed, command, _⟩ :=
      shown.numbered (.other ⟨2, "foo"⟩) (by decide +kernel) _ rfl
    exact ⟨text, listed, (command (Or.inr (by decide +kernel))).trans (by decide +kernel)⟩
  · obtain ⟨instr, linked, fetched⟩ :=
      addresses rom assembled _ member _ 6 rfl (Row.bracketedAddress?_render _)
    cases linked
    exact fetched

end Hack.VM
