import Hack.Disk
import Hack.Proofs.Files.Paths

/-!
Following paths through a tree of files.

A path leads from directory to directory, so every place above one that it resolves to is a
directory (`open_of_resolve`). A path that resolves to a file therefore ends in the file's name
(`exists_name_of_file`): neither a slash nor a dot nor two dots lead from a directory to a file.

A written file changes one place, which is no directory before or after (`lookup_put`). So paths
resolve behind the write where they resolved before it (`SameDirectories.resolve`), and files at
different places can be written in any order (`Wrote.append`, `Wrote.lookup_eq`).
-/

namespace Hack.Disk

variable {disk other : Disk} {path : String} {place next : Place} {content : ByteArray}

/-! ## Steps -/

/-- A step starts in a directory and stays there, leads back, or leads to a name in it. -/
theorem step_eq_ok_iff {name : String} :
    disk.step place name = .ok next ↔
      disk.lookup place = some .directory ∧
        (name = "." ∧ next = place ∨ name = ".." ∧ next = place.dropLast ∨
          name ≠ "." ∧ name ≠ ".." ∧ name.utf8ByteSize ≤ maxNameBytes ∧
            next = place ++ [name]) := by
  unfold step
  split
  · next none => simp [none]
  · next found => simp [found]
  · next found =>
    rw [found]
    split
    · next here =>
      subst here
      simp [eq_comm]
    · next other =>
      split
      · next back =>
        subst back
        simp [eq_comm]
      · next forward =>
        split
        · next long => simp [other, forward, Nat.not_le_of_lt long]
        · next short => simp [other, forward, Nat.le_of_not_lt short, eq_comm]

/-- Every place above is a directory. -/
def Open (disk : Disk) (place : Place) : Prop :=
  ∀ above, above <+: place → above ≠ place → disk.lookup above = some .directory

theorem Open.step {name : String} (isOpen : disk.Open place)
    (step : disk.step place name = .ok next) : disk.Open next := by
  rcases step_eq_ok_iff.1 step with ⟨directory, ⟨_, rfl⟩ | ⟨_, rfl⟩ | ⟨_, _, _, rfl⟩⟩
  · exact isOpen
  · intro above front differ
    refine isOpen above (front.trans (List.dropLast_prefix place)) ?_
    rintro rfl
    exact differ (front.eq_of_length (Nat.le_antisymm front.length_le
      (List.dropLast_prefix above).length_le))
  · intro above front differ
    rcases List.prefix_concat_iff.1 front with same | front
    · exact absurd same differ
    · by_cases last : above = place
      · rw [last]
        exact directory
      · exact isOpen above front last

theorem Open.steps {names : List String} (isOpen : disk.Open place)
    (steps : names.foldlM disk.step place = .ok next) : disk.Open next := by
  induction names generalizing place with
  | nil =>
    cases steps
    exact isOpen
  | cons name names ih =>
    rw [List.foldlM_cons] at steps
    cases first : disk.step place name with
    | error fault =>
      rw [first] at steps
      cases steps
    | ok middle =>
      rw [first] at steps
      exact ih (isOpen.step first) steps

/-! ## Paths -/

/-- Above the root and the working directory there are directories only. -/
theorem open_start (absolute : Prop) [Decidable absolute] :
    disk.Open (if absolute then [] else workingPlace) := by
  split
  · intro above front differ
    exact absurd (List.prefix_nil.1 front) differ
  · intro above front differ
    have single : above <+: [] ++ [""] := front
    rcases List.prefix_concat_iff.1 single with same | nothing
    · exact absurd same differ
    · rw [List.prefix_nil.1 nothing]
      rfl

theorem resolve_eq_ok_iff :
    disk.resolve path = .ok place ↔
      path.isEmpty = false ∧ path.utf8ByteSize ≤ maxPathBytes ∧
        (steps path).foldlM disk.step (if path.toList.head? = some '/' then [] else workingPlace) =
          .ok place := by
  unfold resolve
  split
  · next empty => simp [empty]
  · next more =>
    split
    · next long => simp [Nat.not_le_of_lt long]
    · next short => simp [more, Nat.le_of_not_lt short]

/-- A path leads through directories only. -/
theorem open_of_resolve (resolved : disk.resolve path = .ok place) : disk.Open place :=
  (open_start _).steps (resolve_eq_ok_iff.1 resolved).2.2

/-- The step back from a place that a path leads to ends in a directory. -/
theorem Open.lookup_dropLast (isOpen : disk.Open place) :
    disk.lookup place.dropLast = some .directory := by
  by_cases root : place = []
  · rw [root]
    rfl
  · refine isOpen _ (List.dropLast_prefix place) fun same => ?_
    have length := congrArg List.length same
    rw [List.length_dropLast] at length
    have some := List.length_pos_iff.2 root
    omega

/-! ## Files -/

/-- The steps of a path before its last piece, from where the path starts. -/
def enter (disk : Disk) (before : List (List Char)) : Except Fault Place :=
  ((before.map String.ofList).filter (! String.isEmpty ·)).foldlM disk.step
    (if before.head? = some [] then [] else workingPlace)

/-- The step that the last piece of a path stands for: an empty piece, behind a slash, stays. -/
def lastStep (name : List Char) : String := if name = [] then "." else String.ofList name

theorem open_enter {before : List (List Char)} (entered : disk.enter before = .ok place) :
    disk.Open place :=
  (open_start _).steps entered

theorem steps_of_pieces {before : List (List Char)} {name : List Char}
    (split : Path.pieces path.toList = before ++ [name]) :
    steps path = (before.map String.ofList).filter (! String.isEmpty ·) ++ [lastStep name] := by
  simp only [steps, split, List.map_append, List.map_singleton, List.filter_append,
    List.getLast?_concat]
  by_cases none : name = []
  · subst none
    simp [lastStep]
  · have more : String.ofList name ≠ "" := fun empty => none (String.ofList_injective empty)
    simp [lastStep, none, more]

/-- A path is followed up to its last piece, and from there by one step more. -/
theorem foldlM_steps {before : List (List Char)} {name : List Char}
    (split : Path.pieces path.toList = before ++ [name]) :
    (steps path).foldlM disk.step (if path.toList.head? = some '/' then [] else workingPlace) =
      disk.enter before >>= fun directory => disk.step directory (lastStep name) := by
  have head : (Path.join (before ++ [name])).head? = some '/' ↔ before.head? = some [] :=
    Path.head?_join_concat fun piece member => Path.not_mem_of_mem_pieces (split ▸ member)
  rw [← split, Path.join_pieces] at head
  simp only [steps_of_pieces split, List.foldlM_append, head, enter, List.foldlM_cons,
    List.foldlM_nil, bind_pure]

theorem resolve_of_pieces {before : List (List Char)} {name : List Char}
    (split : Path.pieces path.toList = before ++ [name]) (resolved : disk.resolve path = .ok place) :
    ∃ directory, disk.enter before = .ok directory ∧
      disk.step directory (lastStep name) = .ok place := by
  have steps := (resolve_eq_ok_iff.1 resolved).2.2
  rw [foldlM_steps split] at steps
  cases entered : disk.enter before with
  | error fault =>
    rw [entered] at steps
    cases steps
  | ok directory =>
    rw [entered] at steps
    exact ⟨directory, rfl, steps⟩

/-- Only a name leads from a directory to a file. -/
theorem Open.name_of_file {name : String} (isOpen : disk.Open place)
    (step : disk.step place name = .ok next) (file : disk.lookup next = some (.file content)) :
    name ≠ "." ∧ name ≠ ".." ∧ next = place ++ [name] := by
  rcases step_eq_ok_iff.1 step with ⟨directory, ⟨_, rfl⟩ | ⟨_, rfl⟩ | ⟨here, back, _, rfl⟩⟩
  · rw [directory] at file
    cases file
  · rw [isOpen.lookup_dropLast] at file
    cases file
  · exact ⟨here, back, rfl⟩

/-- A path that resolves to a file ends in the file's name. -/
theorem exists_name_of_file (resolved : disk.resolve path = .ok place)
    (file : disk.lookup place = some (.file content)) :
    ∃ before name directory, Path.pieces path.toList = before ++ [name] ∧
      Path.isIdle name = false ∧ name ≠ ['.', '.'] ∧ disk.enter before = .ok directory ∧
      place = directory ++ [String.ofList name] := by
  rcases List.eq_nil_or_concat (Path.pieces path.toList) with none | ⟨before, name, split⟩
  · exact absurd none (Path.piecesFrom_ne_nil [] path.toList)
  rw [List.concat_eq_append] at split
  rcases resolve_of_pieces split resolved with ⟨directory, entered, step⟩
  rcases (open_enter entered).name_of_file step file with ⟨here, back, last⟩
  have some : name ≠ [] := by
    rintro rfl
    exact here rfl
  have named : lastStep name = String.ofList name := if_neg some
  rw [named] at here back last
  refine ⟨before, name, directory, split, ?_, ?_, entered, last⟩
  · simp only [Path.isIdle, Bool.or_eq_false_iff, List.isEmpty_eq_false_iff, beq_eq_false_iff_ne]
    refine ⟨some, ?_⟩
    rintro rfl
    exact here rfl
  · rintro rfl
    exact back rfl

theorem find_eq_ok_iff {entry : Entry} :
    disk.find path = .ok entry ↔
      ∃ place, disk.resolve path = .ok place ∧ disk.lookup place = some entry := by
  unfold find
  cases resolved : disk.resolve path with
  | error fault => simp
  | ok place => cases found : disk.lookup place <;> simp [found]

/-- A file is read where its path leads. -/
theorem read_eq_ok_iff :
    disk.read path = .ok content ↔
      ∃ place, disk.resolve path = .ok place ∧ disk.lookup place = some (.file content) := by
  rw [← find_eq_ok_iff, read]
  cases found : disk.find path with
  | error fault => simp
  | ok entry => cases entry <;> simp

/-- A text that was written is read back. -/
theorem fromUTF8?_toUTF8 (text : String) : String.fromUTF8? text.toUTF8 = some text :=
  dif_pos text.isValidUTF8

theorem isDirectory_of_read (read : disk.read path = .ok content) :
    disk.isDirectory path = false := by
  have found := find_eq_ok_iff.2 (read_eq_ok_iff.1 read)
  rw [isDirectory, found]

/-! ## Writes -/

/-- Both trees have directories at the same places. -/
def SameDirectories (disk other : Disk) : Prop :=
  ∀ place, disk.lookup place = some .directory ↔ other.lookup place = some .directory

theorem SameDirectories.symm (same : disk.SameDirectories other) : other.SameDirectories disk :=
  fun place => (same place).symm

theorem SameDirectories.step {name : String} (same : disk.SameDirectories other)
    (step : disk.step place name = .ok next) : other.step place name = .ok next :=
  step_eq_ok_iff.2 ((step_eq_ok_iff.1 step).imp_left (same place).1)

theorem SameDirectories.steps {names : List String} (same : disk.SameDirectories other)
    (steps : names.foldlM disk.step place = .ok next) :
    names.foldlM other.step place = .ok next := by
  induction names generalizing place with
  | nil => exact steps
  | cons name names ih =>
    rw [List.foldlM_cons] at steps ⊢
    cases first : disk.step place name with
    | error fault =>
      rw [first] at steps
      cases steps
    | ok middle =>
      rw [first] at steps
      rw [same.step first]
      exact ih steps

/-- A path depends on the directories alone. -/
theorem SameDirectories.resolve (same : disk.SameDirectories other)
    (resolved : disk.resolve path = .ok place) : other.resolve path = .ok place := by
  rcases resolve_eq_ok_iff.1 resolved with ⟨some, short, steps⟩
  exact resolve_eq_ok_iff.2 ⟨some, short, same.steps steps⟩

/-- A file can be written at a path: it leads to a place where no directory is. -/
structure Creates (disk : Disk) (path : String) (place : Place) : Prop where
  resolved : disk.resolve path = .ok place
  free : disk.lookup place ≠ some .directory

/-- The tree with a file at a place. -/
def put (disk : Disk) (place : Place) (content : ByteArray) : Disk :=
  ⟨disk.entries.insert place (.file content)⟩

theorem Creates.write (creates : disk.Creates path place) (content : ByteArray) :
    disk.write path content = .ok (disk.put place content) := by
  rw [Disk.write, creates.resolved]
  exact if_neg creates.free

theorem isOk_write_iff :
    (disk.write path content).isOk = true ↔ ∃ place, disk.Creates path place := by
  constructor
  · intro well
    unfold Disk.write at well
    split at well
    · cases well
    · next place resolved =>
      split at well
      · cases well
      · next free => exact ⟨place, resolved, free⟩
  · intro found
    obtain ⟨place, creates⟩ := found
    rw [creates.write content]
    rfl

/-- A written file changes its own place alone. -/
theorem lookup_put (free : disk.lookup place ≠ some .directory) (found : Place) :
    (disk.put place content).lookup found =
      if found = place then some (.file content) else disk.lookup found := by
  unfold lookup at free ⊢
  by_cases special : found = [] ∨ found = workingPlace
  · rw [if_pos special, if_pos special, if_neg]
    rintro rfl
    exact free (if_pos special)
  · rw [if_neg special, if_neg special, put, Table.get?_insert]
    by_cases same : found = place
    · rw [if_pos (beq_iff_eq.2 same.symm), if_pos same]
    · rw [if_neg (mt beq_iff_eq.1 (Ne.symm same)), if_neg same]

/-- A write leaves the directories as they are. -/
theorem sameDirectories_put (free : disk.lookup place ≠ some .directory) :
    disk.SameDirectories (disk.put place content) := by
  intro found
  rw [lookup_put free]
  split
  · next here =>
    subst here
    simp [free]
  · rfl

theorem SameDirectories.creates (same : disk.SameDirectories other)
    (creates : disk.Creates path place) : other.Creates path place :=
  ⟨same.resolve creates.resolved, mt (same place).2 creates.free⟩

theorem Creates.unique (creates : disk.Creates path place) (again : disk.Creates path next) :
    place = next := by
  have resolved := again.resolved
  rw [creates.resolved] at resolved
  cases resolved
  rfl

/-- The trees differ by the given files, each a path with a content, and nothing else. -/
structure Wrote (disk after : Disk) (files : List (String × ByteArray)) : Prop where
  own : ∀ file ∈ files, ∀ place, disk.Creates file.1 place →
    after.lookup place = some (.file file.2)
  other : ∀ place, (∀ file ∈ files, ¬ disk.Creates file.1 place) →
    after.lookup place = disk.lookup place

section Wrote

variable {middle after : Disk} {files more : List (String × ByteArray)}

theorem Wrote.nil : disk.Wrote disk [] := ⟨nofun, fun _ _ => rfl⟩

theorem Creates.wrote (creates : disk.Creates path place) :
    disk.Wrote (disk.put place content) [(path, content)] := by
  constructor
  case own =>
    intro file member found again
    rw [List.mem_singleton.1 member] at again ⊢
    rw [lookup_put creates.free, if_pos (again.unique creates)]
  case other =>
    intro found none
    rw [lookup_put creates.free, if_neg]
    rintro rfl
    exact none _ List.mem_cons_self creates

theorem Wrote.sameDirectories (wrote : disk.Wrote after files) : disk.SameDirectories after := by
  intro place
  by_cases written : ∃ file ∈ files, disk.Creates file.1 place
  · rcases written with ⟨file, member, creates⟩
    rw [wrote.own file member place creates]
    simp [creates.free]
  · rw [wrote.other place fun file member creates => written ⟨file, member, creates⟩]

/-- Files at different places can be written one after the other. -/
theorem Wrote.append (first : disk.Wrote middle files) (second : middle.Wrote after more)
    (apart : ∀ file ∈ files, ∀ next ∈ more, ∀ place,
      disk.Creates file.1 place → ¬ disk.Creates next.1 place) :
    disk.Wrote after (files ++ more) := by
  have same := first.sameDirectories
  constructor
  case own =>
    intro file member place creates
    rcases List.mem_append.1 member with early | late
    · rw [second.other place fun next late again =>
        apart file early next late place creates (same.symm.creates again)]
      exact first.own file early place creates
    · exact second.own file late place (same.creates creates)
  case other =>
    intro place none
    rw [second.other place fun next late again =>
      none next (List.mem_append_right _ late) (same.symm.creates again)]
    exact first.other place fun file early => none file (List.mem_append_left _ early)

/-- What was written determines every place, in whichever order it was written. -/
theorem Wrote.lookup_eq (wrote : disk.Wrote after files) (again : disk.Wrote other more)
    (members : ∀ file, file ∈ files ↔ file ∈ more) (place : Place) :
    after.lookup place = other.lookup place := by
  by_cases written : ∃ file ∈ files, disk.Creates file.1 place
  · rcases written with ⟨file, member, creates⟩
    rw [wrote.own file member place creates,
      again.own file ((members file).1 member) place creates]
  · rw [wrote.other place fun file member creates => written ⟨file, member, creates⟩,
      again.other place fun file member creates =>
        written ⟨file, (members file).2 member, creates⟩]

/-- A file that is not among those written is read as before. -/
theorem Wrote.read (wrote : disk.Wrote after files) (read : disk.read path = .ok content)
    (kept : ∀ place, disk.resolve path = .ok place →
      ∀ file ∈ files, ¬ disk.Creates file.1 place) : after.read path = .ok content := by
  rcases read_eq_ok_iff.1 read with ⟨place, resolved, file⟩
  refine read_eq_ok_iff.2 ⟨place, wrote.sameDirectories.resolve resolved, ?_⟩
  rw [wrote.other place (kept place resolved), file]

end Wrote

/-! ## The order of names -/

/-- Both trees hold the same, though the names in a directory may come in different orders. -/
structure Reordered (disk other : Disk) : Prop where
  lookup_eq : ∀ place, disk.lookup place = other.lookup place
  names : ∀ place, (disk.names place).Perm (other.names place)

namespace Reordered

variable (same : disk.Reordered other)

include same

theorem symm : other.Reordered disk :=
  ⟨fun place => (same.lookup_eq place).symm, fun place => (same.names place).symm⟩

theorem step_eq : disk.step = other.step := by
  funext place name
  simp only [step, same.lookup_eq]

theorem resolve_eq (path : String) : disk.resolve path = other.resolve path := by
  simp only [resolve, same.step_eq]

theorem find_eq (path : String) : disk.find path = other.find path := by
  simp only [find, same.resolve_eq, same.lookup_eq]

theorem read_eq (path : String) : disk.read path = other.read path := by
  simp only [read, same.find_eq]

theorem isDirectory_eq (path : String) : disk.isDirectory path = other.isDirectory path := by
  simp only [isDirectory, same.find_eq]

theorem list_perm (path : String) : (disk.list path).Perm (other.list path) := by
  rw [list, list, same.resolve_eq]
  split
  · exact same.names _
  · exact .nil

theorem creates (creates : disk.Creates path place) : other.Creates path place :=
  ⟨same.resolve_eq path ▸ creates.resolved, same.lookup_eq place ▸ creates.free⟩

theorem wrote {after : Disk} {files : List (String × ByteArray)} (wrote : disk.Wrote after files) :
    other.Wrote after files := by
  constructor
  case own =>
    intro file member place creates
    exact wrote.own file member place (same.symm.creates creates)
  case other =>
    intro place none
    rw [← same.lookup_eq]
    exact wrote.other place fun file member creates => none file member (same.creates creates)

end Reordered

end Hack.Disk
