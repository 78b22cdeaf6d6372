import Hack.VM.Compilation
import Hack.VM.Semantics

/-!
What a compiled source unit is made of.

`Compiles unit command code` says what code a command of a unit can have, with one rule for every
shape of code. `compiles_of_mem_blocks` says that every block of a compilation is an instance of a
rule, and `map_command_of_compile` that a unit without errors has a block for every command on its
lines, in their order.
-/

namespace Hack.VM

open Assembly

/-- The command on a line that has one and can be read. -/
def Line.command? (line : Line) : Option Command :=
  match line.command with
  | .ok command => command
  | .error _ => none

/-- The commands of a source unit, in the order of its lines. -/
def SourceUnit.commands (unit : SourceUnit) : List Command := unit.lines.filterMap Line.command?

/-- How a segment is reached from a unit. -/
inductive Reached (unit : String) (index : Word) : Segment → Access → Prop
  | constant : Reached unit index .constant (.literal (.value index.toNat))
  | indirect {segment : Segment} {base : Register} :
    segment.base? = some base → Reached unit index segment (.indirect base (.value index.toNat))
  | temp : Reached unit index .temp (.direct (.value (MemoryMap.temp + index.toNat)))
  | pointer : Reached unit index .pointer (.direct (.value (MemoryMap.pointer + index.toNat)))
  | statics : Reached unit index .statics (.direct (.symbol (staticSymbol unit index)))

/-- The code that a command can have in a source unit. Only the number of a comparison depends on
the commands before it. -/
inductive Compiles (unit : String) : Command → Program → Prop
  | operate (number : Nat) (op : Operator) :
    Compiles unit (.operate op) (Code.operate (LabelPair.ofNumber number) op)
  | push {segment : Segment} {index : Word} {reached : Access} :
    Reached unit index segment reached →
    Compiles unit (.move .push segment index) (Code.push reached)
  | pop {segment : Segment} {index : Word} {reached : Access} {code : Program} :
    Reached unit index segment reached → Code.pop reached = .ok code →
    Compiles unit (.move .pop segment index) code

/-! ## One command -/

theorem eq_of_map_loadOffset {f : Statement → Access} {base : Nat} {index : Word} {reached : Access}
    (mapped : (loadOffset base index).map f = .ok reached) :
    reached = f (.value (base + index.toNat)) := by
  unfold loadOffset at mapped
  split at mapped <;> cases mapped
  rfl

/-- Whatever an access that is granted looks like, it is that of its segment. -/
theorem Reached.of_access {unit : String} {index : Word} {segment : Segment} {reached : Access}
    (granted : access (some unit) index segment = .ok reached) :
    Reached unit index segment reached := by
  cases segment with
  | constant =>
    rw [access] at granted
    split at granted <;> cases granted
    exact .constant
  | locals | arguments | this | that =>
    rw [eq_of_map_loadOffset granted, Nat.zero_add]
    exact .indirect rfl
  | temp =>
    rw [eq_of_map_loadOffset granted]
    exact .temp
  | pointer =>
    rw [eq_of_map_loadOffset granted]
    exact .pointer
  | statics =>
    cases granted
    exact .statics

/-- A move is compiled if its cell is reached; the constant segment has none to pop to. -/
theorem Code.move_eq_ok_iff {unit : Option String} {direction : Direction} {segment : Segment}
    {index : Word} {code : Program} :
    Code.move unit direction segment index = .ok code ↔
      ∃ reached, access unit index segment = .ok reached ∧
        ((direction = .push ∧ code = Code.push reached) ∨
          (direction = .pop ∧ segment ≠ .constant ∧ Code.pop reached = .ok code)) := by
  constructor
  · intro compiled
    unfold Code.move at compiled
    cases direction with
    | push =>
      cases granted : access unit index segment with
      | error error => rw [granted] at compiled; cases compiled
      | ok reached =>
        rw [granted] at compiled
        cases compiled
        exact ⟨reached, rfl, Or.inl ⟨rfl, rfl⟩⟩
    | pop =>
      dsimp only at compiled
      split at compiled
      · cases compiled
      · next cells =>
        cases granted : access unit index segment with
        | error error => rw [granted] at compiled; cases compiled
        | ok reached =>
          rw [granted] at compiled
          exact ⟨reached, rfl, Or.inr ⟨rfl, cells, compiled⟩⟩
  · rintro ⟨reached, granted, ⟨rfl, rfl⟩ | ⟨rfl, cells, popped⟩⟩
    · rw [Code.move, granted]
      rfl
    · rw [Code.move, if_neg cells, granted]
      exact popped

theorem Compiles.of_move {unit : String} {direction : Direction} {segment : Segment}
    {index : Word} {code : Program}
    (compiled : Code.move (some unit) direction segment index = .ok code) :
    Compiles unit (.move direction segment index) code := by
  obtain ⟨reached, granted, ⟨rfl, rfl⟩ | ⟨rfl, _, popped⟩⟩ := Code.move_eq_ok_iff.1 compiled
  · exact .push (.of_access granted)
  · exact .pop (.of_access granted) popped

/-- Whatever a compiler answers to a command is one of its possible codes. -/
theorem Compiles.of_command {unit : String} {compiler after : Compiler} {command : Command}
    {code : Program} (named : compiler.unit = some unit)
    (answer : compiler.command command = (.ok code, after)) : Compiles unit command code := by
  unfold Compiler.command at answer
  cases command with
  | operate op =>
    dsimp only at answer
    split at answer <;> cases answer <;> exact .operate _ op
  | move direction segment index =>
    rw [named] at answer
    exact .of_move (congrArg Prod.fst answer)

theorem Compiler.command_unit (compiler : Compiler) (command : Command) :
    (compiler.command command).2.unit = compiler.unit := by
  unfold Compiler.command
  cases command with
  | operate op => dsimp only; split <;> rfl
  | move direction segment index => rfl

/-- The number of instruction words of a command. -/
def Command.words : Command → Nat
  | .operate .neg | .operate .not => 3
  | .operate op => if op.isComparison then 15 else 5
  | .move .push segment _ => if segment.base?.isSome then 10 else 7
  | .move .pop segment _ => if segment.base?.isSome then 12 else 5

/-- The number of instruction words of commands. -/
def Command.totalWords : List Command → Nat
  | [] => 0
  | command :: rest => command.words + totalWords rest

theorem Command.totalWords_append (front back : List Command) :
    totalWords (front ++ back) = totalWords front + totalWords back := by
  induction front with
  | nil => exact (Nat.zero_add _).symm
  | cons command front ih => rw [List.cons_append, totalWords, totalWords, ih, Nat.add_assoc]

/-- The code of a command has as many words as the command, whatever its index and its number. -/
theorem Compiles.wordCount {unit : String} {command : Command} {code : Program}
    (compiled : Compiles unit command code) : code.wordCount = command.words := by
  cases compiled with
  | operate number op => cases op <;> rfl
  | push reached =>
    cases reached with
    | indirect known => simp only [Command.words, known, Option.isSome_some, if_true]; rfl
    | _ => rfl
  | pop reached popped =>
    cases reached with
    | constant => cases popped
    | indirect known =>
      cases popped
      simp only [Command.words, known, Option.isSome_some, if_true]
      rfl
    | _ => cases popped; rfl

namespace Compilation

/-! ## One line -/

/-- Remarks are noted in order. -/
theorem foldl_remark (line : Line) (remarks : List Remark) (c : Compilation) :
    remarks.foldl (fun c remark => c.remark line remark) c =
      { c with
        messages := c.messages ++ (remarks.map (Diagnostic.mk line.index)).toArray } := by
  induction remarks generalizing c with
  | nil => simp
  | cons remark remarks ih =>
    rw [List.foldl_cons, ih]
    simp [Compilation.remark]

theorem hasError_of_mem {c : Compilation} {index : Nat} {error : CommandError}
    (member : ⟨index, .failed error⟩ ∈ c.messages) : c.hasError = true :=
  Array.any_eq_true'.2 ⟨_, member, rfl⟩

/-- What a line adds: nothing to a compilation if it is blank, the code of its command, or an
error. -/
theorem addLine_cases (c : Compilation) (compiler : Compiler) (line : Line) :
    (line.command = .ok none ∧ addLine (c, compiler) line = (c, compiler)) ∨
    (∃ command code after, line.command = .ok (some command) ∧
      compiler.command command = (.ok code, after) ∧
      addLine (c, compiler) line =
        ({ blocks := c.blocks.push ⟨line.index, command, code⟩
           messages :=
             c.messages ++ (command.remarks.map (Diagnostic.mk line.index)).toArray }, after)) ∨
    (∃ command error after, line.command = .ok (some command) ∧
      compiler.command command = (.error error, after) ∧
      addLine (c, compiler) line =
        ({ c with
           messages := (c.messages ++ (command.remarks.map (Diagnostic.mk line.index)).toArray).push
             ⟨line.index, .failed error⟩ }, after)) ∨
    (∃ error, line.command = .error error ∧
      addLine (c, compiler) line =
        ({ c with messages := c.messages.push ⟨line.index, .failed error⟩ }, compiler)) := by
  unfold addLine
  cases read : line.command with
  | error error => exact Or.inr (Or.inr (Or.inr ⟨error, rfl, rfl⟩))
  | ok content =>
    cases content with
    | none => exact Or.inl ⟨rfl, rfl⟩
    | some command =>
      dsimp only
      rw [foldl_remark]
      rcases answer : compiler.command command with ⟨result, after⟩
      cases result with
      | ok code => exact Or.inr (Or.inl ⟨command, code, after, rfl, answer, rfl⟩)
      | error error => exact Or.inr (Or.inr (Or.inl ⟨command, error, after, rfl, answer, rfl⟩))

/-! ## All lines -/

/-- What holds after the given lines of a unit have been compiled. -/
structure Stage (unit : String) (done : List Line) (state : Compilation × Compiler) : Prop where
  unit_eq : state.2.unit = some unit
  compiles : ∀ block ∈ state.1.blocks, Compiles unit block.command block.code
  commands : state.1.hasError = false →
    state.1.blocks.toList.map Block.command = done.filterMap Line.command?

theorem Stage.start (unit : String) : Stage unit [] ({}, Compiler.start (some unit)) :=
  ⟨rfl, fun _ member => absurd member (Array.not_mem_empty _), fun _ => rfl⟩

theorem Stage.addLine {unit : String} {done : List Line} {c : Compilation} {compiler : Compiler}
    (stage : Stage unit done (c, compiler)) (line : Line) :
    Stage unit (done ++ [line]) (Compilation.addLine (c, compiler) line) := by
  rcases addLine_cases c compiler line with ⟨read, result⟩ |
    ⟨command, code, after, read, answer, result⟩ | ⟨command, error, after, read, answer, result⟩ |
    ⟨error, read, result⟩
  · rw [result]
    refine ⟨stage.unit_eq, stage.compiles, fun clean => ?_⟩
    rw [stage.commands clean, List.filterMap_append]
    simp [Line.command?, read]
  · rw [result]
    have named : after.unit = some unit := by
      rw [← stage.unit_eq, ← compiler.command_unit command, answer]
    refine ⟨named, ?_, fun clean => ?_⟩
    · intro block member
      rcases Array.mem_push.1 member with earlier | rfl
      · exact stage.compiles block earlier
      · exact .of_command stage.unit_eq answer
    · have cleanBefore : c.hasError = false := by
        simp only [hasError, Array.any_append, Bool.or_eq_false_iff] at clean ⊢
        exact clean.1
      rw [Array.toList_push, List.map_append, stage.commands cleanBefore, List.filterMap_append]
      simp [Line.command?, read]
  · rw [result]
    have named : after.unit = some unit := by
      rw [← stage.unit_eq, ← compiler.command_unit command, answer]
    refine ⟨named, stage.compiles, fun clean => ?_⟩
    rw [hasError_of_mem Array.mem_push_self] at clean
    cases clean
  · rw [result]
    refine ⟨stage.unit_eq, stage.compiles, fun clean => ?_⟩
    rw [hasError_of_mem Array.mem_push_self] at clean
    cases clean

theorem Stage.foldl {unit : String} {done : List Line} {state : Compilation × Compiler}
    (stage : Stage unit done state) (rest : List Line) :
    Stage unit (done ++ rest) (rest.foldl Compilation.addLine state) := by
  induction rest generalizing done state with
  | nil => rwa [List.append_nil]
  | cons line rest ih =>
    rw [List.append_cons]
    exact ih (stage.addLine line)

end Compilation

/-! ## Units -/

theorem SourceUnit.stage_compile (unit : SourceUnit) :
    ∃ compiler, Compilation.Stage unit.name unit.lines (unit.compile, compiler) :=
  ⟨_, (Compilation.Stage.start unit.name).foldl unit.lines⟩

/-- Every block of a compiled unit holds code of its command. -/
theorem compiles_of_mem_blocks {unit : SourceUnit} {block : Block}
    (member : block ∈ unit.compile.blocks) : Compiles unit.name block.command block.code := by
  obtain ⟨compiler, stage⟩ := unit.stage_compile
  exact stage.compiles block member

/-- A unit without errors has one block for each of its commands, in their order. -/
theorem map_command_of_compile {unit : SourceUnit} (clean : unit.compile.hasError = false) :
    unit.compile.blocks.toList.map Block.command = unit.commands := by
  obtain ⟨compiler, stage⟩ := unit.stage_compile
  exact stage.commands clean

end Hack.VM
