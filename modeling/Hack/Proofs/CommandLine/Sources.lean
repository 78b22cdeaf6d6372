import Hack.CommandLine.Compile
import Hack.Proofs.Files.Disk

/-!
The sources of a call of the compiler.

Reading succeeds exactly if there is a source, at most one if an output is named, if every source is
a text with a valid name, and if no two have the same name (`loadUnits_eq_ok_iff`,
`readingFault_iff`).

A unit that was read stands in a directory under a name whose stem is the name of the unit
(`exists_standsAt`). Its code goes to the same directory, to that stem with the extension of compiled
code. So different units never share a place for their code (`StandsAt.name_eq_of_target`), and none
writes to the place of another one's source (`StandsAt.name_eq_of_source`).
-/

namespace Hack.CommandLine

open VM Disk

variable {disk : Disk} {path : String} {unit other : SourceUnit} {request : CompileRequest}

/-! ## Reading -/

/-- A unit is read from the text at its path and named after the stem of the path. -/
theorem loadUnit_eq_ok_iff :
    loadUnit disk path = .ok unit ↔
      unit.path = path ∧ unit.name = SourceUnit.nameOf path ∧
        ∃ content, disk.read path = .ok content ∧
          String.fromUTF8? content = some unit.source := by
  unfold loadUnit
  split
  · next missing => simp [missing]
  · next unreadable => simp [unreadable]
  · next content read =>
    rw [read]
    split
    · next noText => simp [noText]
    · next source text =>
      simp only [Except.ok.injEq, exists_eq_left', text, Option.some.injEq]
      rw [SourceUnit.ofPath?, SourceUnit.ofName?]
      by_cases valid : isSymbol (SourceUnit.nameOf path) = true
      · rw [dif_pos valid]
        rcases unit with ⟨unitPath, name, unitSource, symbol⟩
        simp only [Except.ok.injEq, SourceUnit.mk.injEq]
        constructor
        · rintro ⟨rfl, rfl, rfl⟩
          exact ⟨rfl, rfl, rfl⟩
        · rintro ⟨rfl, rfl, rfl⟩
          exact ⟨rfl, rfl, rfl⟩
      · rw [dif_neg valid]
        simp only [reduceCtorEq, false_iff, not_and]
        rintro - named -
        exact valid (named ▸ unit.isSymbol_name)

/-- Why a source cannot be read as a unit. -/
inductive SourceFault (disk : Disk) (path : String) : Prop
  | unreadable {fault : Fault} : disk.read path = .error fault → SourceFault disk path
  | noText {content : ByteArray} :
    disk.read path = .ok content → String.fromUTF8? content = none → SourceFault disk path
  | invalidName : isSymbol (SourceUnit.nameOf path) = false → SourceFault disk path

theorem exists_loadUnit_or_fault (disk : Disk) (path : String) :
    (∃ unit, loadUnit disk path = .ok unit) ∨ SourceFault disk path := by
  cases read : disk.read path with
  | error fault => exact Or.inr (.unreadable read)
  | ok content =>
    cases text : String.fromUTF8? content with
    | none => exact Or.inr (.noText read text)
    | some source =>
      cases valid : isSymbol (SourceUnit.nameOf path) with
      | false => exact Or.inr (.invalidName valid)
      | true =>
        exact Or.inl ⟨⟨path, SourceUnit.nameOf path, source, valid⟩,
          loadUnit_eq_ok_iff.2 ⟨rfl, rfl, content, read, text⟩⟩

theorem SourceFault.not_load (fault : SourceFault disk path) : loadUnit disk path ≠ .ok unit := by
  intro load
  rcases loadUnit_eq_ok_iff.1 load with ⟨_, named, content, read, text⟩
  cases fault with
  | unreadable unreadable =>
    rw [read] at unreadable
    cases unreadable
  | noText read' noText =>
    rw [read] at read'
    cases read'
    rw [text] at noText
    cases noText
  | invalidName invalid =>
    rw [← named, unit.isSymbol_name] at invalid
    cases invalid

/-- Units are read in order if each of them can be read and no name comes twice. -/
theorem loadUnits_eq_ok_iff {loaded units : List SourceUnit} {paths : List String}
    (distinct : (loaded.map SourceUnit.name).Nodup) :
    loadUnits disk loaded paths = .ok units ↔
      ∃ more, units = loaded ++ more ∧ more.map SourceUnit.path = paths ∧
        (∀ unit ∈ more, loadUnit disk unit.path = .ok unit) ∧
        (units.map SourceUnit.name).Nodup := by
  induction paths generalizing loaded with
  | nil =>
    rw [loadUnits]
    constructor
    · rintro ⟨⟩
      exact ⟨[], (List.append_nil _).symm, rfl, nofun, distinct⟩
    · rintro ⟨more, rfl, none, _⟩
      rw [List.map_eq_nil_iff.1 none, List.append_nil]
  | cons path rest ih =>
    rw [loadUnits]
    cases load : loadUnit disk path with
    | error error =>
      simp only [reduceCtorEq, false_iff]
      rintro ⟨more, _, paths, read, _⟩
      rcases List.map_eq_cons_iff.1 paths with ⟨first, others, rfl, rfl, _⟩
      rw [read first List.mem_cons_self] at load
      cases load
    | ok unit =>
      have here : unit.path = path := (loadUnit_eq_ok_iff.1 load).1
      dsimp only
      split
      · next found search =>
        have member := List.mem_of_find?_eq_some search
        have same : found.name = unit.name := by simpa using List.find?_some search
        simp only [reduceCtorEq, false_iff]
        rintro ⟨more, rfl, paths, read, distinct'⟩
        rcases List.map_eq_cons_iff.1 paths with ⟨first, others, rfl, firstPath, _⟩
        have load' := read first List.mem_cons_self
        rw [firstPath, load] at load'
        cases load'
        rw [List.map_append] at distinct'
        exact (List.nodup_append.1 distinct').2.2 _ (List.mem_map_of_mem member) _
          (List.mem_map_of_mem List.mem_cons_self) same
      · next search =>
        have fresh : unit.name ∉ loaded.map SourceUnit.name := by
          intro member
          rcases List.mem_map.1 member with ⟨found, known, same⟩
          have differ := List.find?_eq_none.1 search found known
          simp [same] at differ
        have distinct' : ((loaded ++ [unit]).map SourceUnit.name).Nodup := by
          rw [List.map_append, List.map_singleton]
          exact List.nodup_append.2 ⟨distinct, List.pairwise_singleton _ _, fun a member b last same =>
            fresh (List.mem_singleton.1 last ▸ same ▸ member)⟩
        rw [ih distinct']
        constructor
        · rintro ⟨more, rfl, rfl, read, all⟩
          refine ⟨unit :: more, by simp, by simp [here], ?_, by simpa using all⟩
          intro other member
          rcases List.mem_cons.1 member with rfl | member
          · rwa [here]
          · exact read other member
        · rintro ⟨more, rfl, paths, read, all⟩
          rcases List.map_eq_cons_iff.1 paths with ⟨first, others, rfl, firstPath, rfl⟩
          have load' := read first List.mem_cons_self
          rw [firstPath, load] at load'
          cases load'
          exact ⟨others, by simp, rfl, fun other member => read other (.tail _ member), all⟩

/-- The source files of a request, with those in its directories. -/
def sources (request : CompileRequest) (disk : Disk) : List String :=
  request.inputs.flatMap (expandInput disk)

theorem collect_eq_ok_iff {paths : List String} :
    collect disk request = .ok paths ↔
      paths = sources request disk ∧ paths ≠ [] ∧
        (request.output.isSome = true → paths.length ≤ 1) := by
  rw [collect, ← sources]
  split
  · next none =>
    simp only [none, reduceCtorEq, false_iff, not_and]
    exact fun same some => absurd same some
  · next some =>
    split
    · next several =>
      rw [Bool.and_eq_true, decide_eq_true_iff] at several
      simp only [reduceCtorEq, false_iff, not_and]
      rintro rfl - sole
      exact absurd (sole several.1) (Nat.not_le_of_lt several.2)
    · next sole =>
      rw [Bool.and_eq_true, decide_eq_true_iff, not_and, Nat.not_lt] at sole
      rw [Except.ok.injEq]
      constructor
      · rintro rfl
        exact ⟨rfl, some, sole⟩
      · exact fun same => same.1.symm

/-- The sources of a request were all read as the given units. -/
structure Loaded (request : CompileRequest) (disk : Disk) (units : List SourceUnit) : Prop where
  some : units ≠ []
  sole : request.output.isSome = true → units.length ≤ 1
  paths : units.map SourceUnit.path = sources request disk
  read : ∀ unit ∈ units, loadUnit disk unit.path = .ok unit
  distinct : (units.map SourceUnit.name).Nodup

/-- Why the sources of a request cannot all be read. -/
inductive ReadingFault (request : CompileRequest) (disk : Disk) : Prop
  | noSource : sources request disk = [] → ReadingFault request disk
  | severalSources :
    request.output.isSome = true → 1 < (sources request disk).length → ReadingFault request disk
  | source {path : String} :
    path ∈ sources request disk → SourceFault disk path → ReadingFault request disk
  | sameName : ¬ ((sources request disk).map SourceUnit.nameOf).Nodup → ReadingFault request disk

variable {units : List SourceUnit}

theorem loaded_iff :
    Loaded request disk units ↔
      collect disk request = .ok (sources request disk) ∧
        loadUnits disk [] (sources request disk) = .ok units := by
  have none : (([] : List SourceUnit).map SourceUnit.name).Nodup := List.nodup_nil
  rw [collect_eq_ok_iff, loadUnits_eq_ok_iff none]
  constructor
  · intro loaded
    have length : (sources request disk).length = units.length := by
      rw [← loaded.paths, List.length_map]
    refine ⟨⟨rfl, ?_, ?_⟩, units, rfl, loaded.paths, loaded.read, loaded.distinct⟩
    · rw [← loaded.paths]
      exact mt List.map_eq_nil_iff.1 loaded.some
    · rw [length]
      exact loaded.sole
  · rintro ⟨⟨-, some, sole⟩, units', rfl, paths, read, distinct⟩
    rw [← paths] at some sole
    rw [List.length_map] at sole
    exact ⟨mt List.map_eq_nil_iff.2 some, sole, paths, read, distinct⟩

theorem Loaded.unique {others : List SourceUnit} (loaded : Loaded request disk units)
    (again : Loaded request disk others) : units = others :=
  Except.ok.inj ((loaded_iff.1 loaded).2.symm.trans (loaded_iff.1 again).2)

theorem map_name_eq {paths : List String} (same : units.map SourceUnit.path = paths)
    (read : ∀ unit ∈ units, loadUnit disk unit.path = .ok unit) :
    units.map SourceUnit.name = paths.map SourceUnit.nameOf := by
  rw [← same, List.map_map]
  refine List.map_congr_left fun unit member => ?_
  exact (loadUnit_eq_ok_iff.1 (read unit member)).2.1

theorem exists_units {paths : List String}
    (each : ∀ path ∈ paths, ∃ unit, loadUnit disk path = .ok unit) :
    ∃ units : List SourceUnit, units.map SourceUnit.path = paths ∧
      ∀ unit ∈ units, loadUnit disk unit.path = .ok unit := by
  induction paths with
  | nil => exact ⟨[], rfl, nofun⟩
  | cons path rest ih =>
    rcases each path List.mem_cons_self with ⟨unit, load⟩
    rcases ih fun other member => each other (.tail path member) with ⟨units, paths, read⟩
    have here : unit.path = path := (loadUnit_eq_ok_iff.1 load).1
    refine ⟨unit :: units, by rw [List.map_cons, here, paths], ?_⟩
    intro other member
    rcases List.mem_cons.1 member with rfl | member
    · rwa [here]
    · exact read other member

/-- Reading fails exactly for one of the reasons given. -/
theorem readingFault_iff : ReadingFault request disk ↔ ¬ ∃ units, Loaded request disk units := by
  constructor
  · rintro fault ⟨units, loaded⟩
    cases fault with
    | noSource none => exact loaded.some (List.map_eq_nil_iff.1 (loaded.paths.trans none))
    | severalSources named several =>
      rw [← loaded.paths, List.length_map] at several
      exact absurd (loaded.sole named) (Nat.not_le_of_lt several)
    | source member fault =>
      rw [← loaded.paths] at member
      rcases List.mem_map.1 member with ⟨unit, known, rfl⟩
      exact fault.not_load (loaded.read unit known)
    | sameName twice => exact twice (map_name_eq loaded.paths loaded.read ▸ loaded.distinct)
  · intro none
    refine Classical.byContradiction fun sound => none ?_
    have each (path : String) (member : path ∈ sources request disk) :
        ∃ unit, loadUnit disk path = .ok unit :=
      (exists_loadUnit_or_fault disk path).resolve_right fun fault => sound (.source member fault)
    rcases exists_units each with ⟨units, paths, read⟩
    refine ⟨units, ?_, ?_, paths, read, ?_⟩
    · rintro rfl
      exact sound (.noSource paths.symm)
    · intro named
      rw [← List.length_map SourceUnit.path, paths]
      exact Nat.le_of_not_lt fun several => sound (.severalSources named several)
    · rw [map_name_eq paths read]
      exact Decidable.byContradiction fun twice => sound (.sameName twice)

theorem exists_loaded (sound : ¬ ReadingFault request disk) :
    ∃ units, Loaded request disk units :=
  Classical.byContradiction (mt readingFault_iff.2 sound)

theorem Loaded.not_readingFault (loaded : Loaded request disk units) :
    ¬ ReadingFault request disk :=
  fun fault => readingFault_iff.1 fault ⟨units, loaded⟩

/-! ## Places -/

/-- A unit was read from a file with a name in a directory; its code, if it can be written, goes to
the same directory. -/
structure StandsAt (disk : Disk) (unit : SourceUnit) (directory : Place) (name : String) :
    Prop where
  resolved : disk.resolve unit.path = .ok (directory ++ [name])
  file : ∃ content, disk.lookup (directory ++ [name]) = some (.file content)
  name_eq : unit.name = String.ofList (Path.splitName name.toList).1
  target : ∀ place, disk.Creates unit.outputPath place → place = directory ++ [unit.name ++ ".asm"]

/-- Every unit that was read stands somewhere. -/
theorem exists_standsAt (load : loadUnit disk path = .ok unit) :
    ∃ directory name, StandsAt disk unit directory name := by
  rcases loadUnit_eq_ok_iff.1 load with ⟨rfl, named, content, read, _⟩
  rcases read_eq_ok_iff.1 read with ⟨place, resolved, file⟩
  rcases exists_name_of_file resolved file with
    ⟨before, name, directory, split, counts, forward, entered, rfl⟩
  have stem : unit.name = String.ofList (Path.splitName name).1 := by
    rw [named, SourceUnit.nameOf, Path.stem?_of_pieces split counts forward, Option.getD_some]
  refine ⟨directory, String.ofList name, resolved, ⟨content, file⟩, ?_, ?_⟩
  · rw [stem, String.toList_ofList]
  · intro place creates
    have pieces := Path.pieces_withExtension split counts forward
      (show '/' ∉ outputExtension.toList by decide)
    rcases resolve_of_pieces pieces creates.resolved with ⟨directory', entered', step⟩
    rw [entered] at entered'
    cases entered'
    rcases step_eq_ok_iff.1 step with ⟨here, ⟨_, rfl⟩ | ⟨_, rfl⟩ | ⟨_, back, _, rfl⟩⟩
    -- A path that stays or leads back, as that of the stem `.` does, ends in a directory.
    · exact absurd here creates.free
    · exact absurd (open_enter entered).lookup_dropLast creates.free
    · have other : (Path.splitName name).1 ≠ ['.'] := by
        intro dot
        rw [if_pos dot] at back
        exact back rfl
      rw [if_neg other, lastStep, if_neg (by simp), stem]
      refine congrArg (directory ++ [·]) (String.toList_inj.1 ?_)
      simp [outputExtension]

/-- Units whose code goes to the same place have the same name. -/
theorem StandsAt.name_eq_of_target {directory directory' place : Place} {name name' : String}
    (stands : StandsAt disk unit directory name) (stands' : StandsAt disk other directory' name')
    (creates : disk.Creates unit.outputPath place) (creates' : disk.Creates other.outputPath place) :
    unit.name = other.name := by
  have same := (stands.target place creates).symm.trans (stands'.target place creates')
  exact (String.append_left_inj ".asm").1 (List.append_singleton_inj.1 same).2

/-- A unit whose code goes to the source of a unit has the name of that unit. -/
theorem StandsAt.name_eq_of_source {directory directory' : Place} {name name' : String}
    (stands : StandsAt disk unit directory name) (stands' : StandsAt disk other directory' name')
    (creates : disk.Creates unit.outputPath (directory' ++ [name'])) :
    unit.name = other.name := by
  have same := stands.target _ creates
  have last : name' = unit.name ++ ".asm" := (List.append_singleton_inj.1 same).2
  have some : unit.name.toList ≠ [] := by
    intro none
    have valid := unit.isSymbol_name
    rw [String.toList_eq_nil_iff.1 none] at valid
    cases valid
  have split : Path.splitName name'.toList = (unit.name.toList, Option.some "asm".toList) := by
    rw [last, String.toList_append]
    exact Path.splitName_append some (by decide)
  rw [stands'.name_eq, split, String.ofList_toList]

end Hack.CommandLine
