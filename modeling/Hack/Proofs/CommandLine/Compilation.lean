import Hack.Proofs.CommandLine.Sources
import Mathlib.Data.List.TakeWhile

/-!
What a call of the compiler writes and answers.

A fault while reading ends the call with the exit code 1, before anything is written
(`run_of_readingFault`). Otherwise the code of the units without errors is written, each to a place of
its own, since units with one name are refused (`Loaded.apart`). So no write undoes another one, up
to the first file that cannot be created (`wrote_writeUnits`); and if there is no such file, the call
fails for the units with errors alone (`Loaded.run`).
-/

namespace Hack.CommandLine

open VM Disk

variable {disk : Disk} {request : CompileRequest} {units : List SourceUnit} {unit : SourceUnit}

/-! ## Writing -/

/-- The file that holds the code of a unit. -/
def codeFile (request : CompileRequest) (unit : SourceUnit) : String × ByteArray :=
  (targetOf request unit, (unit.compile.render request.annotate).toUTF8)

/-- The files that are written for the units: the code of those without errors. -/
def codeFiles (request : CompileRequest) (units : List SourceUnit) : List (String × ByteArray) :=
  (writable units).map (codeFile request)

/-- The code of two units does not go to one place. -/
def Apart (request : CompileRequest) (disk : Disk) (unit other : SourceUnit) : Prop :=
  ∀ place, disk.Creates (targetOf request unit) place →
    ¬ disk.Creates (targetOf request other) place

/-- All code can be written: each file leads to a place where no directory is. -/
def Creatable (request : CompileRequest) (disk : Disk) (units : List SourceUnit) : Prop :=
  ∀ unit ∈ writable units, ∃ place, disk.Creates (targetOf request unit) place

/-- Whether the file for the code of a unit can be created. -/
def canWrite (request : CompileRequest) (disk : Disk) (unit : SourceUnit) : Bool :=
  (disk.write (codeFile request unit).1 (codeFile request unit).2).isOk

theorem canWrite_iff :
    canWrite request disk unit = true ↔ ∃ place, disk.Creates (targetOf request unit) place :=
  isOk_write_iff

/-- Writes change no path, so they do not change what can be written. -/
theorem canWrite_congr {other : Disk} (same : disk.SameDirectories other) :
    canWrite request other = canWrite request disk := by
  funext unit
  rw [Bool.eq_iff_iff, canWrite_iff, canWrite_iff]
  exact exists_congr fun place => ⟨same.symm.creates, same.creates⟩

/-- The first unit is written, and the others behind it. -/
theorem writeUnits_cons {unit : SourceUnit} {place : Place}
    (creates : disk.Creates (targetOf request unit) place) (rest : List SourceUnit) :
    (writeUnits request disk (unit :: rest)).2 =
      (writeUnits request (disk.put place (codeFile request unit).2) rest).2 := by
  have write := creates.write (codeFile request unit).2
  rw [codeFile] at write
  simp only [writeUnits, write]
  rfl

/-- Units with different places are written up to the first that cannot be. -/
theorem wrote_writeUnits (apart : units.Pairwise (Apart request disk)) :
    disk.Wrote (writeUnits request disk units).2.1
      ((units.takeWhile (canWrite request disk)).map (codeFile request)) := by
  induction units generalizing disk with
  | nil => exact .nil
  | cons unit rest ih =>
    by_cases can : canWrite request disk unit = true
    · obtain ⟨place, creates⟩ := canWrite_iff.1 can
      obtain ⟨fromFirst, apart⟩ := List.pairwise_cons.1 apart
      have same : disk.SameDirectories (disk.put place (codeFile request unit).2) :=
        sameDirectories_put creates.free
      -- The first write leaves every directory, so all later paths lead where they led before.
      have wrote := ih (apart.imp fun apart place creates again =>
        apart place (same.symm.creates creates) (same.symm.creates again))
      rw [canWrite_congr same] at wrote
      rw [writeUnits_cons creates, List.takeWhile_cons_of_pos can, List.map_cons,
        ← List.singleton_append]
      refine creates.wrote.append wrote ?_
      intro file first next later
      rw [List.mem_singleton.1 first]
      obtain ⟨other, taken, rfl⟩ := List.mem_map.1 later
      exact fromFirst other (List.takeWhile_subset _ taken)
    · have stays : (writeUnits request disk (unit :: rest)).2.1 = disk := by
        rw [writeUnits]
        split
        · rfl
        · next write =>
          rw [canWrite, codeFile, write] at can
          exact absurd rfl can
      rw [stays, List.takeWhile_cons_of_neg can]
      exact .nil

/-- Writing fails only at a file that cannot be created. -/
theorem writeUnits_of_canWrite (can : ∀ unit ∈ units, canWrite request disk unit = true) :
    (writeUnits request disk units).2.2 = none := by
  induction units generalizing disk with
  | nil => rfl
  | cons unit rest ih =>
    obtain ⟨place, creates⟩ := canWrite_iff.1 (can unit List.mem_cons_self)
    have same : disk.SameDirectories (disk.put place (codeFile request unit).2) :=
      sameDirectories_put creates.free
    rw [writeUnits_cons creates]
    refine ih fun other member => ?_
    rw [canWrite_congr same]
    exact can other (.tail unit member)

/-- The units whose code is written: those without errors, up to the first whose file cannot be
created. -/
def written (request : CompileRequest) (disk : Disk) (units : List SourceUnit) : List SourceUnit :=
  (writable units).takeWhile (canWrite request disk)

theorem mem_of_mem_written (member : unit ∈ written request disk units) : unit ∈ units :=
  (List.mem_filter.1 (List.takeWhile_subset _ member)).1

/-- Units of different names do not share a place for their code. -/
theorem apart_of_name_ne {unit other : SourceUnit} (load : loadUnit disk unit.path = .ok unit)
    (load' : loadUnit disk other.path = .ok other) (output : request.output = none)
    (differ : unit.name ≠ other.name) : Apart request disk unit other := by
  intro place creates creates'
  simp only [targetOf, output, Option.getD_none] at creates creates'
  rcases exists_standsAt load with ⟨directory, name, stands⟩
  rcases exists_standsAt load' with ⟨directory', name', stands'⟩
  exact differ (stands.name_eq_of_target stands' creates creates')

/-- No two units of a call share a place for their code: either an output is named, and there is one
unit at most, or all names differ. -/
theorem Loaded.apart (loaded : Loaded request disk units) : units.Pairwise (Apart request disk) := by
  cases output : request.output with
  | some path =>
    have sole := loaded.sole (by rw [output]; rfl)
    match units, sole with
    | [], _ => exact .nil
    | [unit], _ => exact List.pairwise_singleton _ unit
  | none =>
    refine (List.pairwise_map.1 loaded.distinct).imp_of_mem fun member member' => ?_
    exact apart_of_name_ne (loaded.read _ member) (loaded.read _ member') output

/-! ## Calls -/

@[simp] theorem disk_finish (lines : List String) (disk : Disk) (error : Option CompileError) :
    (finish lines disk error).disk = disk := by
  cases error <;> rfl

@[simp] theorem exitCode_finish (lines : List String) (disk : Disk) (error : Option CompileError) :
    (finish lines disk error).exitCode = if error.isSome then 1 else 0 := by
  cases error <;> rfl

/-- A call that cannot read its sources answers 1 and leaves all files as they are. -/
theorem run_of_readingFault (fault : ReadingFault request disk) :
    (request.run disk).exitCode = 1 ∧ (request.run disk).disk = disk := by
  unfold CompileRequest.run
  split
  · exact ⟨rfl, rfl⟩
  · next paths collected =>
    have paths_eq := (collect_eq_ok_iff.1 collected).1
    split
    · exact ⟨rfl, rfl⟩
    · next units read =>
      subst paths_eq
      exact absurd fault (loaded_iff.2 ⟨collected, read⟩).not_readingFault

/-- Units are missing among those that are written exactly if there are units with errors. -/
theorem length_writable_lt_iff :
    0 < units.length - (writable units).length ↔ ∃ unit ∈ units, unit.compile.hasError = true := by
  rw [Nat.sub_pos_iff_lt, writable, List.length_filter_lt_length_iff_exists]
  simp only [Bool.not_eq_true', Bool.not_eq_false]

/-- A call that has read its sources leaves the code of the written units and changes nothing
else. -/
theorem Loaded.wrote (loaded : Loaded request disk units) :
    disk.Wrote (request.run disk).disk ((written request disk units).map (codeFile request)) := by
  obtain ⟨collected, read⟩ := loaded_iff.1 loaded
  simp only [CompileRequest.run, collected, read, disk_finish]
  exact wrote_writeUnits (loaded.apart.filter _)

/-- A call that has read its sources writes the code of the units without errors, and answers 1 if
there are others. -/
theorem Loaded.run (loaded : Loaded request disk units)
    (creatable : Creatable request disk units) :
    disk.Wrote (request.run disk).disk (codeFiles request units) ∧
      (request.run disk).exitCode ≤ 1 ∧
      ((request.run disk).exitCode = 1 ↔ ∃ unit ∈ units, unit.compile.hasError = true) := by
  have can (unit : SourceUnit) (member : unit ∈ writable units) :
      canWrite request disk unit = true := canWrite_iff.2 (creatable unit member)
  have all : written request disk units = writable units := List.takeWhile_eq_self_iff.2 can
  have wrote := loaded.wrote
  rw [all] at wrote
  refine ⟨wrote, ?_⟩
  obtain ⟨collected, read⟩ := loaded_iff.1 loaded
  simp only [CompileRequest.run, collected, read, exitCode_finish, writeUnits_of_canWrite can,
    Option.none_or]
  rw [← length_writable_lt_iff]
  by_cases bad : 0 < units.length - (writable units).length
  · rw [if_pos bad]
    exact ⟨Nat.le_refl 1, iff_of_true rfl bad⟩
  · rw [if_neg bad]
    exact ⟨Nat.zero_le 1, iff_of_false Nat.zero_ne_one bad⟩

theorem Loaded.exitCode_eq_zero_iff (loaded : Loaded request disk units)
    (creatable : Creatable request disk units) :
    (request.run disk).exitCode = 0 ↔ ∀ unit ∈ units, unit.compile.hasError = false := by
  rcases loaded.run creatable with ⟨_, atMost, exitCode⟩
  have clean : (∀ unit ∈ units, unit.compile.hasError = false) ↔
      ¬ ∃ unit ∈ units, unit.compile.hasError = true := by
    simp only [not_exists, not_and, Bool.not_eq_true]
  rw [clean, ← exitCode]
  omega

theorem writeUnits_dump (dump : Bool) :
    writeUnits { request with dump } disk units = writeUnits request disk units := by
  induction units generalizing disk with
  | nil => rfl
  | cons unit rest ih => simp only [writeUnits, ih, targetOf]

/-- Listings change nothing but what is printed. -/
theorem run_dump (dump : Bool) :
    ({ request with dump }.run disk).exitCode = (request.run disk).exitCode ∧
      ({ request with dump }.run disk).disk = (request.run disk).disk := by
  have collected : collect disk { request with dump } = collect disk request := rfl
  unfold CompileRequest.run
  rw [collected]
  cases collect disk request with
  | error error => exact ⟨rfl, rfl⟩
  | ok paths =>
    dsimp only
    cases loadUnits disk [] paths with
    | error error => exact ⟨rfl, rfl⟩
    | ok units => simp only [writeUnits_dump, disk_finish, exitCode_finish, and_self]

/-- **A call writes the code of every unit without errors, and nothing else.** If its sources cannot
all be read, for whichever reason, it answers 1 and leaves all files as they are. Otherwise each unit
has a place of its own for its code, in the directory of its source unless the request names an
output; and if all code can be written, then exactly that of the units without errors is, and the
call answers 1 exactly if there are units with errors. A call that prints listings besides leaves the
same files and answers the same. -/
theorem compile_writes_code {arguments : List String}
    (accepted : CompileRequest.ofArguments? arguments = some request) :
    let outcome := compile arguments disk
    (ReadingFault request disk → outcome.exitCode = 1 ∧ outcome.disk = disk) ∧
    (¬ ReadingFault request disk →
      ∃ units, Loaded request disk units ∧
        (∀ unit ∈ units, ∃ directory name, StandsAt disk unit directory name) ∧
        units.Pairwise (Apart request disk) ∧
        (Creatable request disk units →
          disk.Wrote outcome.disk (codeFiles request units) ∧ outcome.exitCode ≤ 1 ∧
            (outcome.exitCode = 1 ↔ ∃ unit ∈ units, unit.compile.hasError = true))) ∧
    ∀ arguments' dump, CompileRequest.ofArguments? arguments' = some { request with dump } →
      (compile arguments' disk).exitCode = outcome.exitCode ∧
        (compile arguments' disk).disk = outcome.disk := by
  intro outcome
  have outcome_eq : outcome = request.run disk := by
    simp only [outcome, compile, accepted]
  rw [outcome_eq]
  refine ⟨run_of_readingFault, fun sound => ?_, fun arguments' dump accepted' => ?_⟩
  · rcases exists_loaded sound with ⟨units, loaded⟩
    exact ⟨units, loaded, fun unit member => exists_standsAt (loaded.read unit member),
      loaded.apart, loaded.run⟩
  · simp only [compile, accepted']
    exact run_dump dump

/-! ## A call with a good and a bad unit -/

def goodUnit : SourceUnit := ⟨"Good.vm", "Good", "push constant 7\n", rfl⟩

def badUnit : SourceUnit := ⟨"Bad.vm", "Bad", "pop constant 7\n", rfl⟩

def goodCode : String := "// push constant 7\n@7\nD=A\n@SP\nA=M\nM=D\n@SP\nM=M+1\n"

/-- The disk with the sources of both units. -/
def unitsDisk : Disk :=
  ({} : Disk).put ["", "Good.vm"] goodUnit.source.toUTF8
    |>.put ["", "Bad.vm"] badUnit.source.toUTF8

def unitsRequest : CompileRequest where
  inputs := ["Bad.vm", "Good.vm"]
  output := none
  dump := false
  annotate := true

theorem lookup_unitsDisk :
    unitsDisk.lookup ["", "Good.vm"] = some (.file goodUnit.source.toUTF8) ∧
    unitsDisk.lookup ["", "Bad.vm"] = some (.file badUnit.source.toUTF8) ∧
    unitsDisk.lookup ["", "Good.asm"] = none ∧ unitsDisk.lookup ["", "Bad.asm"] = none := by
  simp [unitsDisk, lookup, put, workingPlace, Table.get?_insert]

theorem loaded_unitsRequest : Loaded unitsRequest unitsDisk [badUnit, goodUnit] := by
  have good : unitsDisk.read "Good.vm" = .ok goodUnit.source.toUTF8 :=
    read_eq_ok_iff.2 ⟨["", "Good.vm"], rfl, lookup_unitsDisk.1⟩
  have bad : unitsDisk.read "Bad.vm" = .ok badUnit.source.toUTF8 :=
    read_eq_ok_iff.2 ⟨["", "Bad.vm"], rfl, lookup_unitsDisk.2.1⟩
  constructor
  case some => exact List.cons_ne_nil _ _
  case sole => exact nofun
  case paths =>
    simp [sources, unitsRequest, expandInput, isDirectory_of_read good, isDirectory_of_read bad,
      goodUnit, badUnit]
  case read =>
    refine List.forall_mem_cons.2 ⟨?_, List.forall_mem_singleton.2 ?_⟩
    · exact loadUnit_eq_ok_iff.2 ⟨rfl, rfl, _, bad, fromUTF8?_toUTF8 _⟩
    · exact loadUnit_eq_ok_iff.2 ⟨rfl, rfl, _, good, fromUTF8?_toUTF8 _⟩
  case distinct => decide

theorem hasError_goodUnit : goodUnit.compile.hasError = false := by decide +kernel

theorem hasError_badUnit : badUnit.compile.hasError = true := by decide +kernel

theorem writable_units : writable [badUnit, goodUnit] = [goodUnit] := by
  simp [writable, hasError_goodUnit, hasError_badUnit]

theorem creates_goodCode : unitsDisk.Creates "Good.asm" ["", "Good.asm"] :=
  ⟨rfl, by simp [lookup_unitsDisk]⟩

theorem creatable_units : Creatable unitsRequest unitsDisk [badUnit, goodUnit] := by
  rw [Creatable, writable_units]
  exact List.forall_mem_singleton.2 ⟨_, creates_goodCode⟩

/-- The code of the one unit is written, and the other unit makes the call fail. -/
theorem compile_writes_goodCode :
    let outcome := compile ["-a", "Bad.vm", "--", "Good.vm"] unitsDisk
    CompileRequest.ofArguments? ["-a", "Bad.vm", "--", "Good.vm"] = some unitsRequest ∧
    ¬ ReadingFault unitsRequest unitsDisk ∧
    outcome.exitCode = 1 ∧
    outcome.disk.lookup ["", "Good.asm"] = some (.file goodCode.toUTF8) ∧
    outcome.disk.lookup ["", "Bad.asm"] = none := by
  intro outcome
  have accepted : CompileRequest.ofArguments? ["-a", "Bad.vm", "--", "Good.vm"] =
      some unitsRequest := rfl
  have sound := loaded_unitsRequest.not_readingFault
  rcases (compile_writes_code accepted).2.1 sound with
    ⟨units, loaded, _, _, written⟩
  have units_eq : units = [badUnit, goodUnit] := loaded.unique loaded_unitsRequest
  subst units_eq
  rcases written creatable_units with ⟨wrote, _, exitCode⟩
  have code : goodUnit.compile.render true = goodCode := by decide +kernel
  have files_eq : codeFiles unitsRequest [badUnit, goodUnit] = [("Good.asm", goodCode.toUTF8)] := by
    rw [codeFiles, writable_units, ← code]
    rfl
  rw [files_eq] at wrote
  refine ⟨accepted, sound, exitCode.2 ⟨badUnit, List.mem_cons_self, hasError_badUnit⟩,
    wrote.own _ List.mem_cons_self _ creates_goodCode, ?_⟩
  rw [wrote.other, lookup_unitsDisk.2.2.2]
  intro file member again
  rw [List.mem_singleton.1 member] at again
  exact absurd (creates_goodCode.unique again) (by decide)

end Hack.CommandLine
