import Hack.Proofs.VM.Symbols

/-!
The answers of a compiler over any history of calls.

A compiler answers a comparison with code that has the labels of the next number, and nothing else
about a command matters for the numbers (`Compiler.command_cases`). A `Session` keeps what was
answered since the last switch of the source unit. `disciplined_after` says that its labels are
numbered without gaps, however the commands are mixed and whether they fail or not, and that each of
them is loaded once, ahead of its definition. A compiled source unit is the code of one session
(`program_compile`).
-/

namespace Hack.VM

open Assembly

/-- What a compiler can be asked for. -/
inductive Call
  | switch (unit : Option String)
  | command (command : Command)

/-- A command with the answer that it got. -/
structure Reply where
  command : Command
  answer : Except CommandError Program

/-- The code of an answer; a command that failed has none. -/
def Reply.code (reply : Reply) : Program := reply.answer.toOption.getD []

/-- A compiler with its replies since the last switch, or since it was started. -/
structure Session where
  compiler : Compiler
  replies : List Reply := []

namespace Session

def call (s : Session) : Call → Session
  | .switch unit => { compiler := s.compiler.switch unit }
  | .command command =>
    { compiler := (s.compiler.command command).2
      replies := s.replies ++ [⟨command, (s.compiler.command command).1⟩] }

/-- What is left of a history of calls. -/
def after (unit : Option String) (calls : List Call) : Session :=
  calls.foldl call { compiler := Compiler.start unit }

/-- The code of all replies. -/
def code (s : Session) : Program := s.replies.flatMap Reply.code

/-- The number of comparisons among the commands. -/
def comparisons (s : Session) : Nat := s.replies.countP fun reply => reply.command.isComparison

end Session

/-! ## One command -/

/-- The code of a comparison depends on the number of the comparisons before it and on nothing
else. -/
theorem Compiler.exists_jump {command : Command} (compares : command.isComparison = true) :
    ∃ jump, ∀ compiler : Compiler, compiler.command command =
      (.ok (Code.compare jump compiler.labels.next.labels),
        { compiler with labels := compiler.labels.next }) := by
  cases command with
  | operate op =>
    cases op with
    | eq => exact ⟨.eq, fun _ => rfl⟩
    | gt => exact ⟨.gt, fun _ => rfl⟩
    | lt => exact ⟨.lt, fun _ => rfl⟩
    | add | sub | neg | and | or | not => cases compares
  | move direction segment index => cases compares

/-- The answer to any other command is that of a compiler that has just been started for the unit,
and no number is counted. -/
theorem Compiler.command_of_plain (compiler : Compiler) {command : Command}
    (plain : command.isComparison = false) :
    compiler.command command = (((start compiler.unit).command command).1, compiler) := by
  cases command with
  | operate op =>
    cases op with
    | eq | gt | lt => cases plain
    | add | sub | neg | and | or | not => rfl
  | move direction segment index => rfl

theorem Compiler.command_cases (compiler : Compiler) (command : Command) :
    (command.isComparison = true ∧ ∃ jump, compiler.command command =
      (.ok (Code.compare jump compiler.labels.next.labels),
        { compiler with labels := compiler.labels.next })) ∨
    (command.isComparison = false ∧
      compiler.command command = (((start compiler.unit).command command).1, compiler)) := by
  cases compares : command.isComparison with
  | true =>
    obtain ⟨jump, answer⟩ := exists_jump compares
    exact Or.inl ⟨rfl, jump, answer compiler⟩
  | false => exact Or.inr ⟨rfl, compiler.command_of_plain compares⟩

theorem access_of_unnamed {index : Word} {segment : Segment} {reached : Access}
    (granted : access none index segment = .ok reached) (unit : String) :
    access (some unit) index segment = .ok reached := by
  cases segment with
  | statics => cases granted
  | _ => exact granted

/-- What is compiled without a unit is compiled in the same way for any unit. -/
theorem move_of_unnamed {direction : Direction} {segment : Segment} {index : Word} {code : Program}
    (compiled : Code.move none direction segment index = .ok code) (unit : String) :
    Code.move (some unit) direction segment index = .ok code := by
  obtain ⟨reached, granted, moved⟩ := Code.move_eq_ok_iff.1 compiled
  exact Code.move_eq_ok_iff.2 ⟨reached, access_of_unnamed granted unit, moved⟩

theorem Compiles.of_start {unit : Option String} {command : Command} {code : Program}
    (answer : ((Compiler.start unit).command command).1 = .ok code) :
    ∃ name, Compiles name command code := by
  cases command with
  | operate op => cases op <;> cases answer <;> exact ⟨"", .operate _ _⟩
  | move direction segment index =>
    cases unit with
    | some name => exact ⟨name, .of_move answer⟩
    | none => exact ⟨"", .of_move (move_of_unnamed answer "")⟩

/-- The replies that a compiler for a unit can give. -/
inductive Reply.Possible (unit : Option String) : Reply → Prop
  | comparison {command : Command} (jump : Jump) (number : Nat) :
    command.isComparison = true →
    Possible unit ⟨command, .ok (Code.compare jump (.ofNumber number))⟩
  | plain {command : Command} :
    command.isComparison = false →
    Possible unit ⟨command, ((Compiler.start unit).command command).1⟩

namespace Reply.Possible

variable {unit : Option String} {reply : Reply} (possible : reply.Possible unit)

include possible

/-- A reply without a comparison has no labels, and its code is that of a command of some unit. -/
theorem labelNames_of_plain (plain : reply.command.isComparison = false) :
    reply.code.labelNames = [] := by
  cases possible with
  | comparison jump number compares =>
    rw [plain] at compares
    cases compares
  | @plain command _ =>
    unfold Reply.code
    cases answer : ((Compiler.start unit).command command).1 with
    | error error => rfl
    | ok code =>
      obtain ⟨name, compiled⟩ := Compiles.of_start answer
      exact compiled.labelNames_of_plain plain

theorem count_symbolNames {name : String} (label : IsComparisonLabel name) :
    reply.code.symbolNames.count name = reply.code.labelNames.count name := by
  cases possible with
  | comparison jump number compares =>
    rw [← List.count_filter label.isUnfixed]
    exact congrArg (List.count name) (filter_symbolNames_compare jump number)
  | @plain command plain =>
    unfold Reply.code
    cases answer : ((Compiler.start unit).command command).1 with
    | error error => rfl
    | ok code =>
      obtain ⟨unit', compiled⟩ := Compiles.of_start answer
      exact compiled.count_symbolNames label

/-- The labels that a reply defines are loaded by the same reply before. -/
theorem exists_symbol_before {name : String} (member : name ∈ reply.code.labelNames) :
    ∃ front middle back : Program,
      reply.code = front ++ .symbol name :: middle ++ .label name :: back := by
  cases possible with
  | comparison jump number compares => exact exists_symbol_before_label member
  | plain plain =>
    rw [labelNames_of_plain (.plain plain) plain] at member
    cases member

end Reply.Possible

theorem Compiler.possible_reply (compiler : Compiler) (command : Command) :
    Reply.Possible compiler.unit ⟨command, (compiler.command command).1⟩ := by
  rcases compiler.command_cases command with ⟨compares, jump, answer⟩ | ⟨plain, answer⟩
  · rw [answer]
    exact .comparison jump _ compares
  · rw [answer]
    exact .plain plain

theorem Reply.code_of_failed {reply : Reply} {error : CommandError}
    (failed : reply.answer = .error error) : reply.code = [] := by
  unfold Reply.code
  rw [failed]
  rfl

/-! ## Histories -/

namespace Session

theorem code_command (s : Session) (command : Command) :
    (s.call (.command command)).code =
      s.code ++ Reply.code ⟨command, (s.compiler.command command).1⟩ := by
  simp [call, code]

theorem comparisons_command (s : Session) (command : Command) :
    (s.call (.command command)).comparisons =
      s.comparisons + if command.isComparison then 1 else 0 := by
  simp [call, comparisons, List.countP_append, List.countP_singleton]

/-- What every call keeps. -/
structure Ordered (s : Session) : Prop where
  counted : s.compiler.labels.count = s.comparisons
  possible : ∀ reply ∈ s.replies, reply.Possible s.compiler.unit
  labels : s.code.labelNames = comparisonLabels s.comparisons

theorem Ordered.start (unit : Option String) : Ordered { compiler := Compiler.start unit } :=
  ⟨rfl, nofun, rfl⟩

theorem Ordered.call {s : Session} (ordered : s.Ordered) (call : Call) : (s.call call).Ordered := by
  cases call with
  | switch unit => exact .start unit
  | command command =>
    have possible := s.compiler.possible_reply command
    have unit : (s.call (.command command)).compiler.unit = s.compiler.unit :=
      s.compiler.command_unit command
    refine ⟨?_, ?_, ?_⟩
    · rw [comparisons_command, ← ordered.counted]
      rcases s.compiler.command_cases command with ⟨compares, jump, answer⟩ | ⟨plain, answer⟩
      · simp [Session.call, answer, compares, LabelCounter.next]
      · simp [Session.call, answer, plain]
    · intro reply member
      rw [unit]
      rcases List.mem_append.1 member with earlier | last
      · exact ordered.possible reply earlier
      · rw [List.mem_singleton.1 last]
        exact possible
    · rw [code_command, comparisons_command, Program.labelNames_append, ordered.labels]
      rcases s.compiler.command_cases command with ⟨compares, jump, answer⟩ | ⟨plain, answer⟩
      · rw [answer, if_pos compares, comparisonLabels_succ, ← ordered.counted]
        rfl
      · rw [possible.labelNames_of_plain plain, plain, List.append_nil]
        rfl

theorem ordered_after (unit : Option String) (calls : List Call) : (after unit calls).Ordered := by
  suffices kept : ∀ s : Session, s.Ordered → (calls.foldl call s).Ordered from
    kept _ (.start unit)
  intro s ordered
  induction calls generalizing s with
  | nil => exact ordered
  | cons call calls ih => exact ih (s.call call) (ordered.call call)

/-- What the labels of a session are, and what depends on them. -/
structure Disciplined (s : Session) : Prop where
  /-- They are numbered in the order of the comparisons. -/
  labels : s.code.labelNames = comparisonLabels s.comparisons
  distinct : s.code.labelNames.Nodup
  /-- Each is loaded once, -/
  loaded {name : String} : name ∈ s.code.labelNames → s.code.symbolNames.count name = 1
  /-- by the reply that defines it, ahead of the definition. -/
  ahead {reply : Reply} {name : String} : reply ∈ s.replies → name ∈ reply.code.labelNames →
    ∃ front middle back : Program,
      reply.code = front ++ .symbol name :: middle ++ .label name :: back
  /-- Only comparisons that are compiled define labels, -/
  quiet {reply : Reply} : reply ∈ s.replies →
    reply.command.isComparison = false ∨ (∃ error, reply.answer = .error error) →
    reply.code.labelNames = []
  /-- and only they count a number. -/
  uncounted {command : Command} :
    command.isComparison = false ∨ (∃ error, (s.compiler.command command).1 = .error error) →
    (s.compiler.command command).2 = s.compiler
  /-- The answer to any other command is that of a compiler that has just been started. -/
  forgetful {command : Command} : command.isComparison = false →
    (s.compiler.command command).1 = ((Compiler.start s.compiler.unit).command command).1

/-- A session loads a label as often as it defines it. -/
theorem Ordered.count_symbolNames {s : Session} (ordered : s.Ordered) {name : String}
    (label : IsComparisonLabel name) :
    s.code.symbolNames.count name = s.code.labelNames.count name := by
  have possible := ordered.possible
  unfold Session.code
  generalize s.replies = replies at possible ⊢
  induction replies with
  | nil => rfl
  | cons reply replies ih =>
    rw [List.flatMap_cons, Program.symbolNames_append, Program.labelNames_append, List.count_append,
      List.count_append, (possible reply List.mem_cons_self).count_symbolNames label,
      ih fun other member => possible other (.tail _ member)]

/-- **Labels are numbered without gaps.** Whatever a compiler was asked before, the code since the
last switch is disciplined. -/
theorem disciplined_after (unit : Option String) (calls : List Call) :
    (after unit calls).Disciplined := by
  have ordered := ordered_after unit calls
  generalize after unit calls = s at ordered ⊢
  have distinct : s.code.labelNames.Nodup := by
    rw [ordered.labels]
    exact nodup_comparisonLabels _
  refine
    { labels := ordered.labels
      distinct
      loaded := ?_
      ahead := fun known => (ordered.possible _ known).exists_symbol_before
      quiet := ?_
      uncounted := ?_
      forgetful := ?_ }
  · intro name member
    have label : IsComparisonLabel name := by
      rw [ordered.labels] at member
      obtain ⟨number, _, own⟩ := exists_of_mem_comparisonLabels member
      exact .of_mem_names own
    rw [ordered.count_symbolNames label, distinct.count, if_pos member]
  · intro reply known cause
    rcases cause with plain | ⟨error, failed⟩
    · exact (ordered.possible _ known).labelNames_of_plain plain
    · rw [Reply.code_of_failed failed]
      rfl
  · intro command cause
    rcases s.compiler.command_cases command with ⟨compares, jump, answer⟩ | ⟨plain, answer⟩
    · rw [answer, compares] at cause
      rcases cause with plain | ⟨error, failed⟩
      · cases plain
      · cases failed
    · rw [answer]
  · intro command plain
    rcases s.compiler.command_cases command with ⟨compares, _⟩ | ⟨_, answer⟩
    · rw [plain] at compares
      cases compares
    · rw [answer]

theorem unit_commands (s : Session) (commands : List Command) :
    ((commands.map Call.command).foldl call s).compiler.unit = s.compiler.unit := by
  induction commands generalizing s with
  | nil => rfl
  | cons command commands ih =>
    rw [List.map_cons, List.foldl_cons, ih]
    exact s.compiler.command_unit command

theorem map_command_commands (s : Session) (commands : List Command) :
    ((commands.map Call.command).foldl call s).replies.map Reply.command =
      s.replies.map Reply.command ++ commands := by
  induction commands generalizing s with
  | nil => exact (List.append_nil _).symm
  | cons command commands ih =>
    rw [List.map_cons, List.foldl_cons, ih]
    simp [call]

end Session

/-! ## Source units -/

/-- The session of a source unit: its commands, one after the other. -/
def SourceUnit.session (unit : SourceUnit) : Session :=
  Session.after (some unit.name) (unit.commands.map Call.command)

/-- What a line adds to the code: that of the answer to its command, if it has one. -/
theorem Compilation.program_addLine (c : Compilation) (compiler : Compiler) (line : Line) :
    (line.command? = none ∧ (addLine (c, compiler) line).2 = compiler ∧
      (addLine (c, compiler) line).1.program = c.program) ∨
    ∃ command, line.command? = some command ∧
      (addLine (c, compiler) line).2 = (compiler.command command).2 ∧
      (addLine (c, compiler) line).1.program =
        c.program ++ Reply.code ⟨command, (compiler.command command).1⟩ := by
  rcases addLine_cases c compiler line with ⟨read, result⟩ |
    ⟨command, code, after, read, answer, result⟩ | ⟨command, error, after, read, answer, result⟩ |
    ⟨error, read, result⟩
  · exact Or.inl ⟨by simp [Line.command?, read], by rw [result], by rw [result]⟩
  · refine Or.inr ⟨command, by simp [Line.command?, read], by rw [result, answer], ?_⟩
    rw [result, answer]
    simp [program, Reply.code, Except.toOption]
  · refine Or.inr ⟨command, by simp [Line.command?, read], by rw [result, answer], ?_⟩
    rw [result, answer]
    exact (List.append_nil _).symm
  · exact Or.inl ⟨by simp [Line.command?, read], by rw [result], by rw [result]; rfl⟩

theorem Compilation.program_foldl_addLine (lines : List Line) (c : Compilation) {s : Session}
    (code : c.program = s.code) :
    (lines.foldl addLine (c, s.compiler)).1.program =
      (((lines.filterMap Line.command?).map Call.command).foldl Session.call s).code := by
  induction lines generalizing c s with
  | nil => exact code
  | cons line lines ih =>
    rw [List.foldl_cons]
    rcases after : addLine (c, s.compiler) line with ⟨added, compiler⟩
    have step := program_addLine c s.compiler line
    rw [after] at step
    rcases step with ⟨skipped, rfl, same⟩ | ⟨command, found, rfl, longer⟩
    · rw [List.filterMap_cons_none skipped]
      exact ih added (same.trans code)
    · rw [List.filterMap_cons_some found, List.map_cons, List.foldl_cons]
      refine ih added (s := s.call (.command command)) ?_
      rw [Session.code_command, ← code]
      exact longer

/-- A source unit is compiled as its commands are in a session. -/
theorem program_compile (unit : SourceUnit) : unit.compile.program = unit.session.code :=
  Compilation.program_foldl_addLine unit.lines {} (s := ⟨Compiler.start (some unit.name), []⟩) rfl

theorem SourceUnit.map_command_session (unit : SourceUnit) :
    unit.session.replies.map Reply.command = unit.commands :=
  Session.map_command_commands { compiler := Compiler.start (some unit.name) } unit.commands

theorem SourceUnit.possible_of_session {unit : SourceUnit} {reply : Reply}
    (known : reply ∈ unit.session.replies) : reply.Possible (some unit.name) := by
  have named : unit.session.compiler.unit = some unit.name :=
    Session.unit_commands { compiler := Compiler.start (some unit.name) } unit.commands
  rw [← named]
  exact (Session.ordered_after _ _).possible reply known

/-- The labels of a compiled unit are those of its comparisons, whatever else is on its lines. -/
theorem labelNames_compile (unit : SourceUnit) :
    unit.compile.program.labelNames =
      comparisonLabels (unit.commands.countP Command.isComparison) := by
  rw [program_compile, ← unit.map_command_session, List.countP_map]
  exact (Session.ordered_after _ _).labels

end Hack.VM
