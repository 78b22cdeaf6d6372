import Hack.Proofs.CommandLine.Compilation
import Hack.Proofs.VM.Accounts
import Hack.Proofs.VM.Grammar
import Hack.Proofs.VM.Rendering
import Mathlib.Data.List.Nodup

/-!
What becomes of the sources of a call that writes the code of each unit beside its source.

Code goes to the directory of its source, to the name of its unit with the extension of code. So the
only source that it can hit is its own, and it does so exactly if the source has that extension
already (`StandsAt.name_eq_code_iff`, `Loaded.read_source`). The sources in a directory are chosen by
another extension, but a file that is named as an input is taken whatever its extension is. Such a
source is lost: in its place stands its code, which is never the same text unless both are empty
(`source_eq_empty_of_code`).
-/

namespace Hack.VM

open Assembly Text

variable {unit : SourceUnit}

/-! ## Code is no source -/

theorem exists_operator_of_ofWords {word : String} {command : Command}
    (read : Command.ofWords [word] = .ok command) : ∃ op : Operator, op.text = word := by
  rw [Command.ofWords] at read
  split at read
  · next op known => exact ⟨op, text_of_find? known⟩
  · split at read <;> cases read

/-- A line of code gives nothing when it is compiled: no operator can be read as a statement. -/
theorem item?_text_of_isWellFormed (index : Nat) {statement : Statement}
    (wellFormed : statement.isWellFormed = true) : (Line.mk index statement.text).item? = none := by
  obtain ⟨code, read⟩ := readCode_text wellFormed
  have some : statement.text.toList ≠ [] := by
    intro none
    rw [none] at read
    cases read
  have noSlash : '/' ∉ statement.text.toList := fun member =>
    absurd (List.all_eq_true.1 code _ member) (by decide)
  have row : (Line.mk index statement.text).words = [statement.text] := by
    rw [Line.words, cutComment_of_not_mem noSlash, words_eq_singleton (isWord_of_isCode some code),
      List.map_singleton, String.ofList_toList]
  refine Option.eq_none_iff_forall_ne_some.2 fun item found => ?_
  obtain ⟨command, reads, _, _⟩ := Line.item?_eq_some_iff.1 found
  rw [Line.command_eq, row, if_neg (List.cons_ne_nil _ _)] at reads
  cases result : Command.ofWords [statement.text] with
  | error error =>
    rw [result] at reads
    cases reads
  | ok command =>
    obtain ⟨op, same⟩ := exists_operator_of_ofWords result
    have unread : ∀ op ∈ Operator.all, (readCode op.text.toList).isOk = false := by decide
    have failed := unread op op.mem_all
    rw [same, read] at failed
    cases failed

theorem item?_comment (index : Nat) (text : String) :
    (Line.mk index (Statement.comment text).text).item? = none := by
  refine (Line.silent_of_isBlank ?_).1
  rw [Line.isBlank, Statement.text, String.toList_append]
  rfl

/-- No line of the code of a unit gives anything when it is compiled. -/
theorem item?_of_mem_lines_code {annotate : Bool} {line : Line}
    (member : line ∈ Line.ofSource (unit.compile.render annotate)) : line.item? = none := by
  rw [Line.ofSource, unit.lines_render] at member
  obtain ⟨⟨raw, index⟩, inLines, rfl⟩ := List.mem_map.1 member
  obtain ⟨block, inBlocks, inBlock⟩ := List.mem_flatMap.1 (List.fst_mem_of_mem_zipIdx inLines)
  dsimp only at inBlock ⊢
  rcases List.mem_append.1 inBlock with comment | code
  · split at comment
    · rw [List.mem_singleton.1 comment]
      exact item?_comment index block.command.text
    · cases comment
  · obtain ⟨statement, inCode, rfl⟩ := List.mem_map.1 code
    have wellFormed := SourceUnit.isWellFormed_of_mem_blocks inBlocks
    exact item?_text_of_isWellFormed index (List.all_eq_true.1 wellFormed statement inCode)

/-- A unit that is its own code is empty. -/
theorem source_eq_empty_of_code {annotate : Bool}
    (own : unit.compile.render annotate = unit.source) : unit.source = "" := by
  have noItem : unit.items = [] := by
    refine List.flatMap_eq_nil_iff.2 fun line member => ?_
    rw [SourceUnit.lines, ← own] at member
    rw [item?_of_mem_lines_code member]
    rfl
  have noBlock := unit.map_item_blocks_compile
  rw [noItem, List.map_eq_nil_iff] at noBlock
  rw [← own, Compilation.render, ← Array.foldl_toList, noBlock]
  rfl

end Hack.VM

namespace Hack.CommandLine

open VM Disk

variable {disk : Disk} {request : CompileRequest} {units : List SourceUnit} {unit : SourceUnit}
  {path : String}

/-! ## Code in the place of its source -/

/-- The extension of a path is that of the name to which it leads. -/
theorem StandsAt.extension? {directory : Place} {name : String}
    (stands : StandsAt disk unit directory name) :
    Path.extension? unit.path = (Path.splitName name.toList).2.map String.ofList := by
  obtain ⟨content, file⟩ := stands.file
  obtain ⟨before, letters, directory', split, counts, forward, _, place⟩ :=
    exists_name_of_file stands.resolved file
  have named : name = String.ofList letters := (List.append_singleton_inj.1 place).2
  rw [Path.extension?, Path.splitLast?_of_pieces split counts, if_neg forward, Option.bind_some,
    named, String.toList_ofList]

/-- A source has the name of its own code exactly if it has the extension of code. -/
theorem StandsAt.name_eq_code_iff {directory : Place} {name : String}
    (stands : StandsAt disk unit directory name) :
    name = unit.name ++ ".asm" ↔ Path.extension? unit.path = some outputExtension := by
  have stem : unit.name.toList = (Path.splitName name.toList).1 := by
    rw [stands.name_eq, String.toList_ofList]
  have some : (Path.splitName name.toList).1 ≠ [] := by
    rw [← stem]
    intro none
    have symbol := unit.isSymbol_name
    rw [isSymbol, none] at symbol
    cases symbol
  have letters : (unit.name ++ ".asm").toList =
      (Path.splitName name.toList).1 ++ '.' :: outputExtension.toList := by
    rw [String.toList_append, stem]
    rfl
  rw [← String.toList_inj, letters,
    ← Path.splitName_snd_eq_some_iff some (by decide : '.' ∉ outputExtension.toList),
    stands.extension?, Option.map_eq_some_iff]
  constructor
  · intro found
    exact ⟨_, found, String.ofList_toList⟩
  · intro found
    obtain ⟨extension, found, same⟩ := found
    rw [found, ← same, String.toList_ofList]

/-- A source that is not named itself was found in a directory, by its extension. -/
theorem extension?_of_mem_sources (source : path ∈ sources request disk)
    (unnamed : path ∉ request.inputs) : Path.extension? path = some sourceExtension := by
  obtain ⟨input, named, member⟩ := List.mem_flatMap.1 source
  rw [expandInput] at member
  split at member
  · rw [List.mem_mergeSort] at member
    exact eq_of_beq (List.mem_filter.1 member).2
  · rw [List.mem_singleton.1 member] at unnamed
    exact absurd named unnamed

/-- A source is read as before, unless it has the extension of code and its own unit is written. -/
theorem Loaded.read_source (loaded : Loaded request disk units) (beside : request.output = none)
    (member : unit ∈ units) :
    (request.run disk).disk.read unit.path =
      if unit ∈ written request disk units ∧
          Path.extension? unit.path = Option.some outputExtension then
        .ok (codeFile request unit).2
      else disk.read unit.path := by
  have wrote := loaded.wrote
  have load := loaded.read unit member
  obtain ⟨_, _, content, read, _⟩ := loadUnit_eq_ok_iff.1 load
  obtain ⟨directory, name, stands⟩ := exists_standsAt load
  have target (other : SourceUnit) : targetOf request other = other.outputPath := by
    rw [targetOf, beside, Option.getD_none]
  split
  · next lost =>
    obtain ⟨place, creates⟩ := canWrite_iff.1 (List.mem_takeWhile_imp lost.1)
    have here : place = directory ++ [name] := by
      rw [stands.name_eq_code_iff.2 lost.2]
      exact stands.target place (target unit ▸ creates)
    refine read_eq_ok_iff.2 ⟨place, ?_, wrote.own _ (List.mem_map_of_mem lost.1) place creates⟩
    rw [here]
    exact wrote.sameDirectories.resolve stands.resolved
  · next kept =>
    rw [read]
    refine wrote.read read ?_
    intro place resolved codeOfOther inFiles creates
    obtain ⟨other, isWritten, rfl⟩ := List.mem_map.1 inFiles
    have here : place = directory ++ [name] := Except.ok.inj (resolved.symm.trans stands.resolved)
    rw [here, codeFile, target other] at creates
    -- The code of a unit can only go to the source of a unit of its name, which is its own.
    have known := mem_of_mem_written isWritten
    obtain ⟨directory', name', stands'⟩ := exists_standsAt (loaded.read other known)
    have same : other = unit := List.inj_on_of_nodup_map loaded.distinct known member
      (stands'.name_eq_of_source stands creates)
    rw [same] at creates isWritten
    have named := (List.append_singleton_inj.1 (stands.target _ creates)).2
    exact kept ⟨isWritten, stands.name_eq_code_iff.1 named⟩

/-! ## Lost sources -/

theorem toUTF8_of_fromUTF8? {content : ByteArray} {text : String}
    (found : String.fromUTF8? content = some text) : text.toUTF8 = content := by
  unfold String.fromUTF8? at found
  split at found
  · cases found
    rfl
  · cases found

/-- The code of a unit is written over the source at a path: the source has the extension of code,
and its unit is among those that are written. -/
structure Replaces (request : CompileRequest) (disk : Disk) (unit : SourceUnit) (path : String) :
    Prop where
  isWritten : ∃ units, Loaded request disk units ∧ unit ∈ written request disk units
  source : unit.path = path
  extension : Path.extension? path = some "asm"

section Lost

variable {content : ByteArray}

/-- A source that is written over was named as an input. -/
theorem Replaces.mem_inputs (replaces : Replaces request disk unit path)
    (source : path ∈ sources request disk) : path ∈ request.inputs := by
  refine Classical.byContradiction fun unnamed => ?_
  have found := extension?_of_mem_sources source unnamed
  rw [replaces.extension] at found
  exact absurd found (by decide)

theorem Replaces.read (replaces : Replaces request disk unit path)
    (beside : request.output = none) :
    (request.run disk).disk.read path = .ok (unit.compile.render request.annotate).toUTF8 := by
  obtain ⟨units, loaded, isWritten⟩ := replaces.isWritten
  have extension := replaces.extension
  have after := loaded.read_source beside (mem_of_mem_written isWritten)
  rw [← replaces.source] at extension ⊢
  rwa [if_pos ⟨isWritten, extension⟩] at after

/-- A source over which nothing is written is read as before. -/
theorem read_of_not_replaces (beside : request.output = none)
    (source : path ∈ sources request disk) (kept : ∀ unit, ¬ Replaces request disk unit path) :
    (request.run disk).disk.read path = disk.read path := by
  by_cases fault : ReadingFault request disk
  · rw [(run_of_readingFault fault).2]
  · obtain ⟨units, loaded⟩ := exists_loaded fault
    rw [← loaded.paths] at source
    obtain ⟨unit, member, rfl⟩ := List.mem_map.1 source
    rw [loaded.read_source beside member, if_neg]
    exact fun lost => kept unit ⟨⟨units, loaded, lost.1⟩, rfl, lost.2⟩

theorem Replaces.read_eq_iff (replaces : Replaces request disk unit path)
    (beside : request.output = none) (read : disk.read path = .ok content) :
    (request.run disk).disk.read path = .ok content ↔ unit.source = "" := by
  obtain ⟨units, loaded, isWritten⟩ := replaces.isWritten
  have load := loaded.read unit (mem_of_mem_written isWritten)
  obtain ⟨_, _, content', read', text⟩ := loadUnit_eq_ok_iff.1 load
  rw [replaces.source, read] at read'
  cases read'
  rw [replaces.read beside, Except.ok.injEq]
  constructor
  · intro same
    rw [← same, fromUTF8?_toUTF8] at text
    exact source_eq_empty_of_code (Option.some.inj text)
  · intro empty
    have noCode : unit.compile.render request.annotate = "" := by
      rw [SourceUnit.compile, SourceUnit.lines, empty]
      rfl
    rw [noCode, ← empty]
    exact toUTF8_of_fromUTF8? text

/-- **A source is lost exactly if the code of its own unit is written over it,** and the source is
not empty; whatever else a call does, and with whichever exit code it ends, it leaves its sources as
they are. Only a file that is named as an input, with the extension of code, can be written over, and
the call leaves its code in its place. -/
theorem compile_loses_source_iff {arguments : List String}
    (accepted : CompileRequest.ofArguments? arguments = some request)
    (beside : request.output = none) (source : path ∈ sources request disk)
    (read : disk.read path = .ok content) :
    let after := (compile arguments disk).disk
    (after.read path ≠ .ok content ↔
      ∃ unit, Replaces request disk unit path ∧ unit.source ≠ "") ∧
    ∀ unit, Replaces request disk unit path →
      path ∈ request.inputs ∧
        after.read path = .ok (unit.compile.render request.annotate).toUTF8 := by
  intro after
  have after_eq : after = (request.run disk).disk := by
    simp only [after, compile, accepted]
  rw [after_eq]
  constructor
  · constructor
    · intro lost
      have replaced : ∃ unit, Replaces request disk unit path := by
        refine Classical.byContradiction fun none => lost ?_
        rw [← read]
        exact read_of_not_replaces beside source (not_exists.1 none)
      obtain ⟨unit, replaces⟩ := replaced
      exact ⟨unit, replaces, mt (replaces.read_eq_iff beside read).2 lost⟩
    · intro found
      obtain ⟨unit, replaces, some⟩ := found
      exact mt (replaces.read_eq_iff beside read).1 some
  · intro unit replaces
    exact ⟨replaces.mem_inputs source, replaces.read beside⟩

end Lost

/-! ## A source that is named as code -/

def negUnit : SourceUnit := ⟨"Foo.asm", "Foo", "neg\n", rfl⟩

def negDisk : Disk := ({} : Disk).put ["", "Foo.asm"] negUnit.source.toUTF8

def negRequest : CompileRequest where
  inputs := ["Foo.asm"]
  output := none
  dump := false
  annotate := false

theorem lookup_negDisk : negDisk.lookup ["", "Foo.asm"] = some (.file negUnit.source.toUTF8) := by
  simp [negDisk, lookup, put, workingPlace, Table.get?_insert]

theorem read_negDisk : negDisk.read "Foo.asm" = .ok negUnit.source.toUTF8 :=
  read_eq_ok_iff.2 ⟨["", "Foo.asm"], rfl, lookup_negDisk⟩

theorem sources_negRequest : sources negRequest negDisk = ["Foo.asm"] := by
  simp [sources, negRequest, expandInput, isDirectory_of_read read_negDisk]

theorem loaded_negRequest : Loaded negRequest negDisk [negUnit] := by
  constructor
  case some => exact List.cons_ne_nil _ _
  case sole => exact nofun
  case paths =>
    rw [sources_negRequest]
    rfl
  case read =>
    refine List.forall_mem_singleton.2 ?_
    exact loadUnit_eq_ok_iff.2 ⟨rfl, rfl, _, read_negDisk, fromUTF8?_toUTF8 _⟩
  case distinct => decide

theorem replaces_negUnit : Replaces negRequest negDisk negUnit "Foo.asm" := by
  have clean : negUnit.compile.hasError = false := by decide +kernel
  have own : targetOf negRequest negUnit = "Foo.asm" := by decide +kernel
  have creates : negDisk.Creates "Foo.asm" ["", "Foo.asm"] := ⟨rfl, by simp [lookup_negDisk]⟩
  have can : canWrite negRequest negDisk negUnit = true :=
    canWrite_iff.2 ⟨["", "Foo.asm"], own ▸ creates⟩
  refine ⟨⟨[negUnit], loaded_negRequest, ?_⟩, rfl, rfl⟩
  simp [written, writable, clean, can]

theorem mem_sources_negRequest : "Foo.asm" ∈ sources negRequest negDisk := by
  rw [sources_negRequest]
  exact List.mem_cons_self

/-- A source that is named as code is lost, and one that is not is kept. -/
theorem compile_loses_source_negUnit :
    let after := (compile ["Foo.asm"] negDisk).disk
    let after' := (compile ["-a", "Bad.vm", "--", "Good.vm"] unitsDisk).disk
    CompileRequest.ofArguments? ["Foo.asm"] = some negRequest ∧
    "Foo.asm" ∈ sources negRequest negDisk ∧
    negDisk.read "Foo.asm" = .ok "neg\n".toUTF8 ∧
    after.read "Foo.asm" ≠ .ok "neg\n".toUTF8 ∧
    after.read "Foo.asm" = .ok "@SP\nA=M-1\nM=-M\n".toUTF8 ∧
    after'.read "Good.vm" = .ok goodUnit.source.toUTF8 := by
  intro after after'
  have accepted : CompileRequest.ofArguments? ["Foo.asm"] = some negRequest := rfl
  have lost := compile_loses_source_iff accepted rfl mem_sources_negRequest read_negDisk
  have code : negUnit.compile.render negRequest.annotate = "@SP\nA=M-1\nM=-M\n" := by
    decide +kernel
  have inPlace := (lost.2 negUnit replaces_negUnit).2
  rw [code] at inPlace
  have some : negUnit.source ≠ "" := by decide
  refine ⟨accepted, mem_sources_negRequest, read_negDisk,
    lost.1.2 ⟨negUnit, replaces_negUnit, some⟩, inPlace, ?_⟩
  have accepted' : CompileRequest.ofArguments? ["-a", "Bad.vm", "--", "Good.vm"] =
      Option.some unitsRequest := rfl
  have source' : "Good.vm" ∈ sources unitsRequest unitsDisk := by
    rw [← loaded_unitsRequest.paths]
    exact List.mem_cons_of_mem _ List.mem_cons_self
  have read' : unitsDisk.read "Good.vm" = .ok goodUnit.source.toUTF8 :=
    read_eq_ok_iff.2 ⟨["", "Good.vm"], rfl, lookup_unitsDisk.1⟩
  have kept := compile_loses_source_iff accepted' rfl source' read'
  refine Classical.not_not.1 (mt kept.1.1 ?_)
  intro found
  obtain ⟨unit, replaces, _⟩ := found
  exact absurd replaces.extension (by decide)

/-- Not every source is left as it was: a file whose name is that of its code is not. -/
theorem sources_not_always_kept :
    ¬ ∀ arguments request disk, CompileRequest.ofArguments? arguments = some request →
      request.output = none → ∀ path ∈ sources request disk,
        (compile arguments disk).disk.read path = disk.read path := by
  intro always
  have kept := always ["Foo.asm"] negRequest negDisk rfl rfl "Foo.asm" mem_sources_negRequest
  have lost : (compile ["Foo.asm"] negDisk).disk.read "Foo.asm" ≠ .ok negUnit.source.toUTF8 :=
    mt (replaces_negUnit.read_eq_iff rfl read_negDisk).1 (by decide)
  rw [read_negDisk] at kept
  exact lost kept

end Hack.CommandLine
