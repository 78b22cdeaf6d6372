import Hack.Proofs.CommandLine.Compilation

/-!
Calls of the compiler for the same sources, in other orders or one source at a time.

All sources are read before anything is written, and the order in which a directory lists its names
is sorted away (`expandInput_eq`). So calls for the same sources in any order read the same
units (`Rearranged.exists_units`), and these leave the same files, since each goes to a place of its
own.

A call for one source alone compiles its unit to the same code. It cannot disturb a later call, as no
code goes to the place of another source (`load_of_wrote`); so the calls for all sources, one after
the other, leave the files of the joint call (`wrote_compileEach`).
-/

namespace Hack.CommandLine

open VM Disk

variable {disk other : Disk} {request request' : CompileRequest} {units : List SourceUnit}

/-! ## The order of sources -/

/-- A sorted list of texts does not tell in which order they came. -/
theorem mergeSort_eq_of_perm {texts others : List String} (perm : texts.Perm others) :
    texts.mergeSort (fun left right => decide (left ≤ right)) =
      others.mergeSort fun left right => decide (left ≤ right) := by
  have sorted (list : List String) :
      (list.mergeSort fun left right => decide (left ≤ right)).Pairwise (· ≤ ·) := by
    refine (List.pairwise_mergeSort ?_ ?_ list).imp of_decide_eq_true
    · intro a b c first second
      exact decide_eq_true
        (String.le_trans (of_decide_eq_true first) (of_decide_eq_true second))
    · intro a b
      rw [Bool.or_eq_true, decide_eq_true_iff, decide_eq_true_iff]
      exact String.le_total a b
  exact List.Perm.eq_of_pairwise (fun _ _ _ _ => String.le_antisymm) (sorted texts) (sorted others)
    ((List.mergeSort_perm texts _).trans (perm.trans (List.mergeSort_perm others _).symm))

/-- The order in which a directory lists its names does not count. -/
theorem expandInput_eq (same : disk.Reordered other) (input : String) :
    expandInput disk input = expandInput other input := by
  rw [expandInput, expandInput, same.isDirectory_eq]
  split
  · exact mergeSort_eq_of_perm (((same.list_perm input).map (joinPath input)).filter _)
  · rfl

/-- Two requests have the same inputs in perhaps different orders, on disks that list their names in
perhaps different orders, and both write their code beside the sources. -/
structure Rearranged (request : CompileRequest) (disk : Disk) (request' : CompileRequest)
    (other : Disk) : Prop where
  inputs : request.inputs.Perm request'.inputs
  output : request.output = none
  output' : request'.output = none
  annotate : request.annotate = request'.annotate
  disks : disk.Reordered other

theorem Rearranged.symm (rearranged : Rearranged request disk request' other) :
    Rearranged request' other request disk :=
  ⟨rearranged.inputs.symm, rearranged.output', rearranged.output, rearranged.annotate.symm,
    rearranged.disks.symm⟩

theorem Rearranged.sources_perm (rearranged : Rearranged request disk request' other) :
    (sources request disk).Perm (sources request' other) := by
  have expand : expandInput disk = expandInput other :=
    funext (expandInput_eq rearranged.disks)
  rw [sources, sources, expand]
  exact rearranged.inputs.flatMap_right _

theorem Rearranged.loadUnit_eq (rearranged : Rearranged request disk request' other) (path : String) :
    loadUnit disk path = loadUnit other path := by
  rw [loadUnit, loadUnit, rearranged.disks.read_eq]

theorem units_eq_filterMap {paths : List String} (same : units.map SourceUnit.path = paths)
    (read : ∀ unit ∈ units, loadUnit disk unit.path = .ok unit) :
    paths.filterMap (fun path => (loadUnit disk path).toOption) = units := by
  subst same
  induction units with
  | nil => rfl
  | cons unit rest ih =>
    rw [List.map_cons, List.filterMap_cons, read unit List.mem_cons_self]
    exact congrArg (unit :: ·) (ih fun other member => read other (.tail unit member))

/-- The sources of a request that was read can be read in every order. -/
theorem Loaded.exists_perm (loaded : Loaded request disk units) {order : List String}
    (perm : order.Perm (sources request disk)) :
    ∃ others : List SourceUnit, others.map SourceUnit.path = order ∧ others.Perm units ∧
      ∀ unit ∈ others, loadUnit disk unit.path = .ok unit := by
  have each (path : String) (member : path ∈ order) : ∃ unit, loadUnit disk path = .ok unit := by
    have known := perm.mem_iff.1 member
    rw [← loaded.paths] at known
    rcases List.mem_map.1 known with ⟨unit, found, rfl⟩
    exact ⟨unit, loaded.read unit found⟩
  rcases exists_units each with ⟨others, paths, read⟩
  refine ⟨others, paths, ?_, read⟩
  rw [← units_eq_filterMap paths read, ← units_eq_filterMap loaded.paths loaded.read]
  exact perm.filterMap _

/-- Rearranged sources are read as the same units. -/
theorem Rearranged.exists_units (rearranged : Rearranged request disk request' other)
    (loaded : Loaded request disk units) :
    ∃ others, Loaded request' other others ∧ others.Perm units := by
  rcases loaded.exists_perm rearranged.sources_perm.symm with ⟨others, paths, perm, read⟩
  refine ⟨others, ⟨?_, ?_, paths, ?_, ?_⟩, perm⟩
  · rintro rfl
    exact loaded.some (List.nil_perm.1 perm)
  · rw [rearranged.output']
    exact nofun
  · intro unit member
    rw [← rearranged.loadUnit_eq]
    exact read unit member
  · exact (perm.map SourceUnit.name).nodup_iff.2 loaded.distinct

/-! ## Calls in another order -/

theorem targetOf_congr (output : request.output = request'.output) :
    targetOf request = targetOf request' := by
  funext unit
  rw [targetOf, targetOf, output]

theorem codeFile_congr (output : request.output = request'.output)
    (annotate : request.annotate = request'.annotate) : codeFile request = codeFile request' := by
  funext unit
  rw [codeFile, codeFile, targetOf_congr output, annotate]

theorem mem_codeFiles {file : String × ByteArray} :
    file ∈ codeFiles request units ↔
      ∃ unit ∈ units, unit.compile.hasError = false ∧ codeFile request unit = file := by
  simp only [codeFiles, writable, List.mem_map, List.mem_filter, Bool.not_eq_true', and_assoc]

/-- Rearranged calls answer the same and leave the same files. -/
theorem Rearranged.run (rearranged : Rearranged request disk request' other)
    (creatable : ∀ units, Loaded request disk units → Creatable request disk units) :
    (request'.run other).exitCode = (request.run disk).exitCode ∧
      ∀ place, (request'.run other).disk.lookup place = (request.run disk).disk.lookup place := by
  by_cases fault : ReadingFault request disk
  · have fault' : ReadingFault request' other := by
      refine readingFault_iff.2 fun ⟨others, loaded'⟩ => ?_
      rcases rearranged.symm.exists_units loaded' with ⟨units, loaded, _⟩
      exact loaded.not_readingFault fault
    rw [(run_of_readingFault fault).1, (run_of_readingFault fault).2,
      (run_of_readingFault fault').1, (run_of_readingFault fault').2]
    exact ⟨rfl, fun place => (rearranged.disks.lookup_eq place).symm⟩
  · rcases exists_loaded fault with ⟨units, loaded⟩
    rcases rearranged.exists_units loaded with ⟨others, loaded', perm⟩
    have output : request'.output = request.output :=
      rearranged.output'.trans rearranged.output.symm
    have file_eq : codeFile request' = codeFile request :=
      codeFile_congr output rearranged.annotate.symm
    have creatable' : Creatable request' other others := by
      intro unit member
      rw [targetOf_congr output]
      exact (creatable units loaded unit ((perm.filter _).mem_iff.1 member)).imp fun _ =>
        rearranged.disks.creates
    rcases loaded.run (creatable units loaded) with ⟨wrote, atMost, exitCode⟩
    rcases loaded'.run creatable' with ⟨wrote', atMost', exitCode'⟩
    constructor
    · simp only [perm.mem_iff] at exitCode'
      rw [← exitCode] at exitCode'
      omega
    · refine (rearranged.disks.symm.wrote wrote').lookup_eq wrote fun file => ?_
      simp only [mem_codeFiles, file_eq, perm.mem_iff]

/-! ## One source at a time -/

/-- The request to compile one source alone. -/
def soleRequest (annotate : Bool) (path : String) : CompileRequest where
  inputs := [path]
  output := none
  dump := false
  annotate := annotate

/-- The arguments that make this request. -/
def soleArguments (annotate : Bool) (path : String) : List String :=
  if annotate then ["--annotate", "--", path] else ["--", path]

theorem ofArguments?_soleArguments (annotate : Bool) (path : String) :
    CompileRequest.ofArguments? (soleArguments annotate path) = some (soleRequest annotate path) := by
  cases annotate <;> rfl

/-- Calls for single sources, one after the other: the exit codes and the disk that they leave. -/
def compileEach (annotate : Bool) (disk : Disk) : List String → List Nat × Disk
  | [] => ([], disk)
  | path :: rest =>
    let outcome := compile (soleArguments annotate path) disk
    let (exitCodes, disk) := compileEach annotate outcome.disk rest
    (outcome.exitCode :: exitCodes, disk)

section Sole

variable {unit : SourceUnit}

theorem loaded_soleRequest (load : loadUnit disk unit.path = .ok unit) (annotate : Bool) :
    Loaded (soleRequest annotate unit.path) disk [unit] := by
  rcases loadUnit_eq_ok_iff.1 load with ⟨_, _, content, read, _⟩
  constructor
  case some => exact List.cons_ne_nil _ _
  case sole => exact fun _ => Nat.le_refl 1
  case paths => simp [sources, soleRequest, expandInput, isDirectory_of_read read]
  case read => exact List.forall_mem_singleton.2 load
  case distinct => exact List.pairwise_singleton _ _

/-- A call for one source writes the code of its unit, or fails if that has errors. -/
theorem compile_soleArguments (load : loadUnit disk unit.path = .ok unit)
    (output : request.output = none)
    (creatable : Creatable request disk [unit]) :
    disk.Wrote (compile (soleArguments request.annotate unit.path) disk).disk
        (codeFiles request [unit]) ∧
      ((compile (soleArguments request.annotate unit.path) disk).exitCode = 0 ↔
        unit.compile.hasError = false) := by
  have target_eq : targetOf (soleRequest request.annotate unit.path) = targetOf request :=
    targetOf_congr output.symm
  have file_eq : codeFile (soleRequest request.annotate unit.path) = codeFile request :=
    codeFile_congr output.symm rfl
  have loaded := loaded_soleRequest load request.annotate
  rw [Creatable, ← target_eq] at creatable
  have wrote := (loaded.run creatable).1
  rw [codeFiles, file_eq, ← codeFiles] at wrote
  simp only [compile, ofArguments?_soleArguments]
  exact ⟨wrote, (loaded.exitCode_eq_zero_iff creatable).trans List.forall_mem_singleton⟩

/-- The source of another unit is read as before. -/
theorem load_of_wrote {after : Disk} {next : SourceUnit}
    (wrote : disk.Wrote after (codeFiles request [unit])) (output : request.output = none)
    (load : loadUnit disk unit.path = .ok unit) (load' : loadUnit disk next.path = .ok next)
    (differ : unit.name ≠ next.name) : loadUnit after next.path = .ok next := by
  rcases loadUnit_eq_ok_iff.1 load' with ⟨_, named, content, read, text⟩
  refine loadUnit_eq_ok_iff.2 ⟨rfl, named, content, wrote.read read ?_, text⟩
  intro place resolved file member creates
  rcases mem_codeFiles.1 member with ⟨_, single, _, rfl⟩
  rw [List.mem_singleton.1 single, codeFile, targetOf, output] at creates
  rcases exists_standsAt load with ⟨directory, name, stands⟩
  rcases exists_standsAt load' with ⟨directory', name', stands'⟩
  have place_eq := Except.ok.inj (resolved.symm.trans stands'.resolved)
  subst place_eq
  exact differ (stands.name_eq_of_source stands' creates)

end Sole

/-- Calls for units of different names leave the files of all units. -/
theorem wrote_compileEach (output : request.output = none)
    (read : ∀ unit ∈ units, loadUnit disk unit.path = .ok unit)
    (distinct : (units.map SourceUnit.name).Nodup)
    (creatable : Creatable request disk units) :
    disk.Wrote (compileEach request.annotate disk (units.map SourceUnit.path)).2
        (codeFiles request units) ∧
      ((∀ exitCode ∈ (compileEach request.annotate disk (units.map SourceUnit.path)).1,
          exitCode = 0) ↔
        ∀ unit ∈ units, unit.compile.hasError = false) := by
  induction units generalizing disk with
  | nil => exact ⟨.nil, iff_of_true nofun nofun⟩
  | cons unit rest ih =>
    have load := read unit List.mem_cons_self
    have split : writable (unit :: rest) = writable [unit] ++ writable rest :=
      List.filter_append [unit] rest
    have files_eq : codeFiles request (unit :: rest) =
        codeFiles request [unit] ++ codeFiles request rest := by
      rw [codeFiles, split, List.map_append, ← codeFiles, ← codeFiles]
    rw [Creatable, split] at creatable
    rcases compile_soleArguments load output fun other member =>
      creatable other (List.mem_append_left _ member) with ⟨first, exitCode⟩
    have same := first.sameDirectories
    have differ : ∀ next ∈ rest, unit.name ≠ next.name := fun next member same =>
      (List.nodup_cons.1 distinct).1 (same ▸ List.mem_map_of_mem member)
    have read' : ∀ next ∈ rest, loadUnit disk next.path = .ok next := fun next member =>
      read next (.tail unit member)
    -- The first call wrote to none of the later sources, so they are read from its disk as before.
    rcases ih (fun next member => load_of_wrote first output load (read' next member)
        (differ next member))
      (List.nodup_cons.1 distinct).2
      (fun next member => (creatable next (List.mem_append_right _ member)).imp fun _ =>
        same.creates) with ⟨later, exitCodes⟩
    rw [files_eq, List.map_cons]
    simp only [compileEach, List.forall_mem_cons]
    refine ⟨first.append later ?_, and_congr exitCode exitCodes⟩
    intro file early next late
    rcases mem_codeFiles.1 early with ⟨_, single, _, rfl⟩
    rcases mem_codeFiles.1 late with ⟨other, member, _, rfl⟩
    rw [List.mem_singleton.1 single]
    exact apart_of_name_ne load (read' other member) output (differ other member)

/-- **Sources are compiled independently of their order and company.** Calls for the same inputs, in
any order and on disks that list their directories in any order, answer the same and leave the same
files. If the sources can all be read, then calls for one source each, one after the other in any
order, leave these files too, and all of them succeed exactly if the joint call does. -/
theorem compile_independent {arguments arguments' : List String}
    (accepted : CompileRequest.ofArguments? arguments = some request)
    (accepted' : CompileRequest.ofArguments? arguments' = some request')
    (rearranged : Rearranged request disk request' other)
    (creatable : ∀ units, Loaded request disk units → Creatable request disk units) :
    let outcome := compile arguments disk
    let outcome' := compile arguments' other
    outcome'.exitCode = outcome.exitCode ∧
    (∀ place, outcome'.disk.lookup place = outcome.disk.lookup place) ∧
    (¬ ReadingFault request disk → ∀ order, order.Perm (sources request disk) →
      let single := compileEach request.annotate disk order
      (∀ place, single.2.lookup place = outcome.disk.lookup place) ∧
        (outcome.exitCode = 0 ↔ ∀ exitCode ∈ single.1, exitCode = 0)) := by
  intro outcome outcome'
  have outcome_eq : outcome = request.run disk := by
    simp only [outcome, compile, accepted]
  have outcome'_eq : outcome' = request'.run other := by
    simp only [outcome', compile, accepted']
  rw [outcome_eq, outcome'_eq]
  rcases rearranged.run creatable with ⟨exitCode, files⟩
  refine ⟨exitCode, files, fun sound order perm => ?_⟩
  rcases exists_loaded sound with ⟨units, loaded⟩
  have writes := creatable units loaded
  rcases loaded.exists_perm perm with ⟨others, rfl, permUnits, read⟩
  have distinct := (permUnits.map SourceUnit.name).nodup_iff.2 loaded.distinct
  rcases wrote_compileEach rearranged.output read distinct fun unit member =>
    writes unit ((permUnits.filter _).mem_iff.1 member) with ⟨wrote, exitCodes⟩
  constructor
  · refine wrote.lookup_eq (loaded.run writes).1 fun file => ?_
    simp only [mem_codeFiles, permUnits.mem_iff]
  · rw [loaded.exitCode_eq_zero_iff writes, exitCodes]
    simp only [permUnits.mem_iff]

/-! ## The good and the bad unit in another order -/

/-- The disk with both units, entered in the other order. -/
def swappedDisk : Disk :=
  ({} : Disk).put ["", "Bad.vm"] badUnit.source.toUTF8
    |>.put ["", "Good.vm"] goodUnit.source.toUTF8

def swappedRequest : CompileRequest where
  inputs := ["Good.vm", "Bad.vm"]
  output := none
  dump := true
  annotate := true

theorem reordered_unitsDisk : unitsDisk.Reordered swappedDisk := by
  constructor
  case lookup_eq =>
    intro place
    simp only [unitsDisk, swappedDisk, lookup, put, Table.get?_insert, beq_iff_eq]
    by_cases good : ["", "Good.vm"] = place
    · subst good
      simp
    · simp only [if_neg good]
  case names =>
    intro place
    have keys : unitsDisk.entries.keys.toList = [["", "Good.vm"], ["", "Bad.vm"]] := by
      simp [unitsDisk, put, Table.toList_keys_insert, Table.get?_insert]
    have keys' : swappedDisk.entries.keys.toList = [["", "Bad.vm"], ["", "Good.vm"]] := by
      simp [swappedDisk, put, Table.toList_keys_insert, Table.get?_insert]
    rw [names, names, keys, keys']
    exact (List.Perm.swap _ _ []).filterMap _

/-- Both calls fail for the bad unit, and single calls leave the same code. -/
theorem compile_independent_units :
    let outcome := compile ["-a", "Bad.vm", "--", "Good.vm"] unitsDisk
    let outcome' := compile ["-da", "Good.vm", "Bad.vm"] swappedDisk
    outcome'.exitCode = outcome.exitCode ∧
    (compileEach true unitsDisk ["Good.vm", "Bad.vm"]).2.lookup ["", "Good.asm"] =
      outcome.disk.lookup ["", "Good.asm"] := by
  intro outcome outcome'
  have accepted : CompileRequest.ofArguments? ["-a", "Bad.vm", "--", "Good.vm"] =
      some unitsRequest := rfl
  have accepted' : CompileRequest.ofArguments? ["-da", "Good.vm", "Bad.vm"] =
      some swappedRequest := rfl
  have rearranged : Rearranged unitsRequest unitsDisk swappedRequest swappedDisk :=
    ⟨List.Perm.swap _ _ [], rfl, rfl, rfl, reordered_unitsDisk⟩
  have creatable (units : List SourceUnit) (loaded : Loaded unitsRequest unitsDisk units) :
      Creatable unitsRequest unitsDisk units :=
    loaded_unitsRequest.unique loaded ▸ creatable_units
  have sound := loaded_unitsRequest.not_readingFault
  have order : ["Good.vm", "Bad.vm"].Perm (sources unitsRequest unitsDisk) :=
    loaded_unitsRequest.paths ▸ List.Perm.swap _ _ []
  rcases compile_independent accepted accepted' rearranged creatable with ⟨exitCode, _, single⟩
  exact ⟨exitCode, (single sound _ order).1 _⟩

end Hack.CommandLine
