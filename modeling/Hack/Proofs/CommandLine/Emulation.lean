import Mathlib
import Hack.CommandLine.Emulate
import Hack.Proofs.CommandLine.Printed
import Hack.Proofs.Files.Disk
import Hack.Proofs.Machine.Invariant

/-!
The emulator's command line reports the run of the machine.

Its loop executes one instruction after the other and prints what is to be observed of each
(`observe`); the run of the machine only counts them. `observe_eq` ties the two: the loop counts what
the run counts and ends where the run ends, and what it prints is read off the instructions executed
on the way (`Machine.executions`), each with its address and the machine it left. So the report
depends on the run alone, and what is observed of it changes neither the report nor the exit code
(`emulate_reports_run`).
-/

namespace Hack

namespace Machine

/-! ## Executed instructions -/

/-- An executed instruction with its address and the machine that it left. -/
structure Execution where
  address : Nat
  instr : Instr
  after : Machine

/-- The instruction that a single step executes, if there is one. -/
def execution? (m : Machine) : Option Execution :=
  m.current?.map fun instr => ⟨m.pc, instr, m.execute instr⟩

/-- The instructions that a run executes, in order. -/
def executions (m : Machine) : Nat → List Execution
  | 0 => []
  | limit + 1 =>
    match m.execution? with
    | some done => done :: executions done.after limit
    | none => []

theorem step?_eq_execution? (m : Machine) : m.step? = m.execution?.map Execution.after := by
  rw [step?, execution?, Option.map_map]
  rfl

theorem run_succ_of_execution {m : Machine} {done : Execution} (limit : Nat)
    (executed : m.execution? = some done) :
    run (limit + 1) m = ((run limit done.after).1 + 1, (run limit done.after).2) := by
  refine run_succ_of_step limit ?_
  rw [step?_eq_execution?, executed, Option.map_some]

theorem stopped_of_execution? {m : Machine} (none : m.execution? = none) : m.stopped = true := by
  rw [← step?_eq_none_iff, step?_eq_execution?, none, Option.map_none]

/-- As many instructions are executed as the run counts. -/
theorem length_executions (m : Machine) (limit : Nat) :
    (m.executions limit).length = (run limit m).1 := by
  induction limit generalizing m with
  | zero => rfl
  | succ limit ih =>
    cases executed : m.execution? with
    | none =>
      rw [run_of_stopped _ (stopped_of_execution? executed)]
      simp only [executions, executed, List.length_nil]
    | some done =>
      rw [run_succ_of_execution limit executed]
      simp only [executions, executed, List.length_cons, ih]

/-- Every one of them is what the next single step executes after as many single steps as there are
instructions before it. -/
theorem getElem?_executions {m : Machine} {limit time : Nat} (within : time < limit) :
    (m.executions limit)[time]? = (m.perform (List.replicate time .step)).execution? := by
  induction limit generalizing m time with
  | zero => omega
  | succ limit ih =>
    cases executed : m.execution? with
    | none =>
      have stopped := stopped_of_execution? executed
      rw [perform_replicate_step, run_of_stopped _ stopped, executed]
      simp only [executions, executed, List.getElem?_nil]
    | some done =>
      have step : m.step? = some done.after := by rw [step?_eq_execution?, executed, Option.map_some]
      cases time with
      | zero => simp only [executions, executed, List.getElem?_cons_zero]; exact executed.symm
      | succ time =>
        rw [List.replicate_succ, perform_cons, Operation.after, step, Option.getD_some]
        simp only [executions, executed, List.getElem?_cons_succ]
        exact ih (Nat.lt_of_succ_lt_succ within)

end Machine

namespace CommandLine

open Machine

/-! ## What is printed on the way -/

/-- The lines printed for an executed instruction with so many others before it: the trace, and the
section for its address if that is listed. -/
def observation (trace : Bool) (watched : WatchList) (done : Execution) (time : Nat) : List String :=
  (if trace then [traceLine time done.address done.instr done.after] else []) ++
    match watched.get? (.ofNat 16 done.address) with
    | some watch => watch.lines done.address done.after
    | none => []

theorem observe_succ (observers : Observers) (time : Nat) (m : Machine) (printed : Array String)
    (limit : Nat) :
    observe observers time m printed (limit + 1) =
      match m.execution? with
      | some done =>
        observe observers (time + 1) done.after
          (printed ++ observation observers.trace observers.watched done time) limit
      | none => (time, m, printed) := by
  rw [observe, execution?]
  cases m.current? <;> rfl

/-- The loop counts what the run counts and ends where the run ends, and it prints what is to be
observed of every executed instruction, in order. -/
theorem observe_eq (observers : Observers) (time : Nat) (m : Machine) (printed : Array String)
    (limit : Nat) :
    observe observers time m printed limit =
      (time + (run limit m).1, (run limit m).2,
        printed ++ ((m.executions limit).zipIdx time).flatMap fun entry =>
          observation observers.trace observers.watched entry.1 entry.2) := by
  induction limit generalizing time m printed with
  | zero => rfl
  | succ limit ih =>
    rw [observe_succ]
    cases executed : m.execution? with
    | none =>
      rw [run_of_stopped _ (stopped_of_execution? executed)]
      simp only [executions, executed, List.zipIdx_nil, List.flatMap_nil]
      rfl
    | some done =>
      dsimp only
      rw [ih, run_succ_of_execution limit executed]
      simp only [executions, executed, List.zipIdx_cons, List.flatMap_cons, Prod.mk.injEq, true_and]
      refine ⟨by omega, ?_⟩
      exact List.foldl_append.symm

/-! ## The report -/

/-- The lines printed before the machine starts. -/
def opening (request : EmulateRequest) (watched : WatchList) : List String :=
  banner request ++ ["[INIT]"] ++ (if request.trace then [" * Trace"] else []) ++
    match request.watch with
    | some path => [" * Dump[" ++ toString watched.size ++ "] " ++ Text.quote path]
    | none => []

/-- The lines that report a run: why it ended and after how many steps, then the cells that do not
hold what is expected of them, or that all of so many cells do. -/
def report (stopped : Bool) (steps : Nat) (mismatches : List Mismatch) (cells : Nat) :
    List String :=
  ((if stopped then "[EXIT] halted after " else "[EXIT] step limit reached after ") ++
      toString steps ++ " steps") ::
    mismatches.map mismatchLine ++
    (if cells ≠ 0 ∧ mismatches = [] then [matchLine cells] else []) ++
    ["================================================="]

theorem verdict_eq (script : Script) (steps : Nat) (m : Machine) :
    verdict script steps m =
      report m.stopped steps (script.check m) script.expect.size := by
  have empty : script.expect.isEmpty = decide (script.expect.size = 0) := by
    simp [Table.isEmpty, Table.size, Array.isEmpty]
  simp only [verdict, report, empty]
  cases script.check m <;> simp

/-! ## The report read back -/

/-- What is to be read of an executed instruction with so many others before it. -/
def observed (trace : Bool) (watched : WatchList) (done : Execution) (time : Nat) : List Printed :=
  (if trace then
    [Printed.step time done.address done.instr.encode done.instr done.after.a done.after.d]
  else []) ++
    match watched.get? (.ofNat 16 done.address) with
    | some watch => Printed.sectionOf watch done.address done.after
    | none => []

/-- What is to be read of a report. -/
def reported (stopped : Bool) (steps : Nat) (mismatches : List Mismatch) (cells : Nat) :
    List Printed :=
  Printed.ending stopped steps :: mismatches.map Printed.mismatch ++
    if cells ≠ 0 ∧ mismatches = [] then [Printed.agreement cells] else []

theorem filterMap_observation (trace : Bool) (watched : WatchList) (done : Execution) (time : Nat) :
    (observation trace watched done time).filterMap Printed.ofLine? =
      observed trace watched done time := by
  have step : (if trace then [traceLine time done.address done.instr done.after] else []).filterMap
      Printed.ofLine? =
      if trace then
        [Printed.step time done.address done.instr.encode done.instr done.after.a done.after.d]
      else [] := by
    split
    · rw [List.filterMap_cons_some (Printed.ofLine?_traceLine ..), List.filterMap_nil]
    · rfl
  rw [observation, observed, List.filterMap_append, step]
  cases watched.get? (.ofNat 16 done.address) with
  | none => rfl
  | some watch => rw [Printed.filterMap_lines]

theorem filterMap_opening (request : EmulateRequest) (watched : WatchList) :
    (opening request watched).filterMap Printed.ofLine? = [] := by
  have startWords : shownWords "[INIT]".toList = ["[INIT]"] := by
    rw [shownWords_of_not_mem (by decide)]
    rfl
  have traceWords : shownWords " * Trace".toList = ["*", "Trace"] := by
    rw [shownWords_of_not_mem (by decide)]
    rfl
  have start : Printed.ofLine? "[INIT]" = none := Printed.ofLine?_other startWords (by cbv) rfl
  have trace : Printed.ofLine? " * Trace" = none := Printed.ofLine?_other traceWords (by cbv) rfl
  rw [opening, List.filterMap_append, List.filterMap_append, List.filterMap_append,
    Printed.filterMap_banner, List.filterMap_cons_none start]
  cases request.watch with
  | none => cases request.trace <;> simp [trace]
  | some path => cases request.trace <;> simp [trace, Printed.ofLine?_watching]

theorem filterMap_report (stopped : Bool) (steps : Nat) (mismatches : List Mismatch) (cells : Nat) :
    (report stopped steps mismatches cells).filterMap Printed.ofLine? =
      reported stopped steps mismatches cells := by
  have footWords : shownWords "=================================================".toList =
      ["================================================="] := by
    rw [shownWords_of_not_mem (by decide)]
    rfl
  have foot : Printed.ofLine? "=================================================" = none :=
    Printed.ofLine?_other footWords (by cbv) rfl
  have failed : (mismatches.map mismatchLine).filterMap Printed.ofLine? =
      mismatches.map Printed.mismatch := by
    rw [List.filterMap_map, ← List.filterMap_eq_map]
    exact List.filterMap_congr fun cell _ => Printed.ofLine?_mismatchLine cell
  have agreed : (if cells ≠ 0 ∧ mismatches = [] then [matchLine cells] else []).filterMap
      Printed.ofLine? =
      if cells ≠ 0 ∧ mismatches = [] then [Printed.agreement cells] else [] := by
    split
    · rw [List.filterMap_cons_some (Printed.ofLine?_matchLine cells), List.filterMap_nil]
    · rfl
  rw [report, reported, List.filterMap_append, List.filterMap_append,
    List.filterMap_cons_some (Printed.ofLine?_ending stopped steps), failed, agreed,
    List.filterMap_cons_none foot, List.filterMap_nil, List.append_nil]

/-- What the lines about a run show, one execution after the other and then the report. -/
theorem filterMap_ofLine? (request : EmulateRequest) (watched : WatchList) (done : List Execution)
    (stopped : Bool) (steps : Nat) (mismatches : List Mismatch) (cells : Nat) :
    (opening request watched ++ (done.zipIdx.flatMap fun entry =>
      observation request.trace watched entry.1 entry.2) ++
        report stopped steps mismatches cells).filterMap Printed.ofLine? =
      (done.zipIdx.flatMap fun entry => observed request.trace watched entry.1 entry.2) ++
        reported stopped steps mismatches cells := by
  rw [List.filterMap_append, List.filterMap_append, filterMap_opening, List.nil_append,
    List.filterMap_flatMap, filterMap_report]
  simp only [filterMap_observation]

/-- What is looked for outside the bodies of sections is found in the lines about an execution if it
is traced, and if a section is printed for it. -/
theorem filterMap_observed {β : Type} {find? : Printed → Option β}
    (skips : Printed.SkipsBody find?) {found : Execution → Option β}
    (step : ∀ done time, find? (Printed.step time done.address done.instr.encode done.instr
      done.after.a done.after.d) = found done)
    (trace : Bool) (watched : WatchList) (done : List Execution) :
    (done.zipIdx.flatMap fun entry => observed trace watched entry.1 entry.2).filterMap find? =
      done.flatMap fun done =>
        (if trace then (found done).toList else []) ++
          if (watched.get? (.ofNat 16 done.address)).isSome then
            (find? (.head done.address)).toList
          else [] := by
  have each (done : Execution) (time : Nat) : (observed trace watched done time).filterMap find? =
      (if trace then (found done).toList else []) ++
        if (watched.get? (.ofNat 16 done.address)).isSome then
          (find? (.head done.address)).toList
        else [] := by
    rw [observed, List.filterMap_append]
    congr 1
    · cases trace with
      | false => rfl
      | true =>
        rw [if_pos rfl, if_pos rfl, List.filterMap_cons, step]
        cases found done <;> rfl
    · cases watched.get? (.ofNat 16 done.address) with
      | none => rfl
      | some watch => exact skips.filterMap_sectionOf watch done.address done.after
  rw [List.filterMap_flatMap]
  simp only [each]
  conv_rhs => rw [← List.zipIdx_map_fst 0 done, List.flatMap_map]

theorem filterMap_reported {β : Type} {find? : Printed → Option β}
    (agreement : ∀ cells, find? (.agreement cells) = none) (stopped : Bool) (steps : Nat)
    (mismatches : List Mismatch) (cells : Nat) :
    (reported stopped steps mismatches cells).filterMap find? =
      (find? (.ending stopped steps)).toList ++
        mismatches.filterMap fun mismatch => find? (.mismatch mismatch) := by
  have agreed : (if cells ≠ 0 ∧ mismatches = [] then [Printed.agreement cells] else []).filterMap
      find? = [] := by
    split
    · rw [List.filterMap_cons_none (agreement cells), List.filterMap_nil]
    · rfl
  rw [reported, List.filterMap_append, agreed, List.append_nil, List.filterMap_cons,
    List.filterMap_map]
  cases find? (.ending stopped steps) <;> rfl

section ReadOff

variable (trace : Bool) (watched : WatchList) (done : List Execution) (stopped : Bool)
  (steps : Nat) (mismatches : List Mismatch) (cells : Nat)

/-- The addresses in the trace are those of the executed instructions. -/
theorem executed?_observed :
    ((done.zipIdx.flatMap fun entry => observed trace watched entry.1 entry.2) ++
      reported stopped steps mismatches cells).filterMap Printed.executed? =
      if trace then done.map Execution.address else [] := by
  rw [List.filterMap_append, filterMap_reported fun _ => rfl,
    filterMap_observed Printed.skipsBody_executed? fun _ _ => rfl]
  cases trace <;> simp [Printed.executed?, List.map_eq_flatMap]

/-- The sections are for the executed instructions whose addresses are listed. -/
theorem section?_observed :
    ((done.zipIdx.flatMap fun entry => observed trace watched entry.1 entry.2) ++
      reported stopped steps mismatches cells).filterMap Printed.section? =
      (done.map Execution.address).filter fun address =>
        (watched.get? (.ofNat 16 address)).isSome := by
  have listed : (done.map Execution.address).filter (fun address =>
      (watched.get? (.ofNat 16 address)).isSome) = done.flatMap fun done =>
        if (watched.get? (.ofNat 16 done.address)).isSome then [done.address] else [] := by
    rw [← List.filterMap_eq_filter, List.filterMap_map, List.filterMap_eq_flatMap_toList]
    refine List.flatMap_congr fun done _ => ?_
    simp only [Function.comp, Option.guard]
    split <;> rfl
  rw [List.filterMap_append, filterMap_reported fun _ => rfl,
    filterMap_observed Printed.skipsBody_section? fun _ _ => rfl, listed]
  simp [Printed.section?]

theorem stop?_observed :
    ((done.zipIdx.flatMap fun entry => observed trace watched entry.1 entry.2) ++
      reported stopped steps mismatches cells).filterMap Printed.stop? = [(stopped, steps)] := by
  rw [List.filterMap_append, filterMap_reported fun _ => rfl,
    filterMap_observed Printed.skipsBody_stop? fun _ _ => rfl]
  simp [Printed.stop?]

theorem failed?_observed :
    ((done.zipIdx.flatMap fun entry => observed trace watched entry.1 entry.2) ++
      reported stopped steps mismatches cells).filterMap Printed.failed? = mismatches := by
  rw [List.filterMap_append, filterMap_reported fun _ => rfl,
    filterMap_observed Printed.skipsBody_failed? fun _ _ => rfl]
  simp [Printed.failed?]

end ReadOff

/-- What a request reads from the files: the program, the script and the watch list, the last two
without content if they are not asked for. -/
structure EmulateRequest.Loads (request : EmulateRequest) (disk : Disk) (rom : Rom)
    (script : Script) (watched : WatchList) : Prop where
  program : loadProgram disk request.program = .ok rom
  script : (loadConfig? Script.ofText? disk request.script).map (·.getD {}) = .ok script
  watched : (loadConfig? WatchList.ofText? disk request.watch).map (·.getD {}) = .ok watched

variable {request : EmulateRequest} {disk : Disk} {rom : Rom} {script : Script}
  {watched : WatchList}

/-- What a request prints and answers if everything loads. -/
theorem EmulateRequest.Loads.run_eq (loads : request.Loads disk rom script watched) :
    let first := script.apply (start rom)
    let limit := (request.limit.or script.limit).getD maxSteps
    let steps := (first.run limit).1
    let last := (first.run limit).2
    request.run disk =
      { exitCode := if (script.check last).isEmpty then 0 else 1
        lines := opening request watched ++
          ((first.executions limit).zipIdx.flatMap fun entry =>
            observation request.trace watched entry.1 entry.2) ++
          report last.stopped steps (script.check last) script.expect.size
        disk := disk } := by
  intro first limit steps last
  rcases loads with ⟨program, scripted, watching⟩
  cases script? : loadConfig? Script.ofText? disk request.script with
  | error error =>
    rw [script?] at scripted
    cases scripted
  | ok found =>
    cases watch? : loadConfig? WatchList.ofText? disk request.watch with
    | error error =>
      rw [watch?] at watching
      cases watching
    | ok listed =>
      rw [script?] at scripted
      rw [watch?] at watching
      obtain rfl : found.getD {} = script := Except.ok.inj scripted
      obtain rfl : listed.getD {} = watched := Except.ok.inj watching
      simp only [EmulateRequest.run, program, script?, watch?, observe_eq, verdict_eq,
        Array.toList_appendList, List.nil_append, Nat.zero_add]
      rfl

/-- **The emulator reports the run, and nothing that observes it interferes.** If the program, the
script and the watch list load, a call runs the machine from the cells of the script, for at most as
many steps as the option, or else the script, or else the greatest number allows. It prints for every
executed instruction, in order, what is to be observed of it, and then reports why the run ended,
after how many steps, and every mismatch in the order of the script; the exit code is zero exactly if
there is none. The instructions are those that single steps execute one after the other.

All this can be read off what is printed. With a trace the addresses in it are those of the executed
instructions; the sections are for those of them that are listed, with the registers and cells of the
machine after each; the reason, the steps and the mismatches are the ones of the run. With or without
trace, with the watch list or none, a call ends in the same report and exit code. -/
theorem emulate_reports_run {arguments : List String}
    (accepted : EmulateRequest.ofArguments? arguments = some request)
    (loads : request.Loads disk rom script watched) :
    let first := script.apply (start rom)
    let limit := (request.limit.or script.limit).getD maxSteps
    let steps := (first.run limit).1
    let last := (first.run limit).2
    let ending := report last.stopped steps (script.check last) script.expect.size
    let outcome := emulate arguments disk
    let shown := outcome.lines.filterMap Printed.ofLine?
    outcome.lines = opening request watched ++
      ((first.executions limit).zipIdx.flatMap fun entry =>
        observation request.trace watched entry.1 entry.2) ++ ending ∧
    (first.executions limit).length = steps ∧
    (∀ time < limit, (first.executions limit)[time]? =
      (first.perform (List.replicate time .step)).execution?) ∧
    shown = ((first.executions limit).zipIdx.flatMap fun entry =>
      observed request.trace watched entry.1 entry.2) ++
        reported last.stopped steps (script.check last) script.expect.size ∧
    shown.filterMap Printed.executed? =
      (if request.trace then (first.executions limit).map Execution.address else []) ∧
    shown.filterMap Printed.section? =
      ((first.executions limit).map Execution.address).filter (fun address =>
        (watched.get? (.ofNat 16 address)).isSome) ∧
    shown.filterMap Printed.stop? = [(last.stopped, steps)] ∧
    shown.filterMap Printed.failed? = script.check last ∧
    (outcome.exitCode = 0 ↔ script.check last = []) ∧
    outcome.exitCode ≤ 1 ∧
    ∀ arguments' trace watch, watch = none ∨ watch = request.watch →
      EmulateRequest.ofArguments? arguments' = some { request with trace, watch } →
      (emulate arguments' disk).exitCode = outcome.exitCode ∧
        ∃ before, (emulate arguments' disk).lines = before ++ ending := by
  intro first limit steps last ending outcome shown
  have outcome_eq : outcome =
      { exitCode := if (script.check last).isEmpty then 0 else 1
        lines := opening request watched ++
          ((first.executions limit).zipIdx.flatMap fun entry =>
            observation request.trace watched entry.1 entry.2) ++ ending
        disk := disk } := by
    simp only [outcome, emulate, accepted]
    exact loads.run_eq
  have shown_eq : shown = ((first.executions limit).zipIdx.flatMap fun entry =>
      observed request.trace watched entry.1 entry.2) ++
        reported last.stopped steps (script.check last) script.expect.size := by
    simp only [shown, outcome_eq]
    exact filterMap_ofLine? ..
  rw [outcome_eq, shown_eq]
  refine ⟨rfl, length_executions first limit, fun time within => getElem?_executions within, rfl,
    executed?_observed .., section?_observed .., stop?_observed .., failed?_observed .., ?_, ?_, ?_⟩
  · simp only [List.isEmpty_iff, ite_eq_left_iff, Nat.one_ne_zero, imp_false, Decidable.not_not]
  · dsimp only
    split <;> omega
  · intro arguments' trace watch kept accepted'
    obtain ⟨watched', loads'⟩ : ∃ watched',
        EmulateRequest.Loads { request with trace, watch } disk rom script watched' := by
      rcases kept with rfl | rfl
      · exact ⟨{}, loads.program, loads.script, rfl⟩
      · exact ⟨watched, loads.program, loads.script, loads.watched⟩
    have other_eq : emulate arguments' disk =
        EmulateRequest.run { request with trace, watch } disk := by
      simp only [emulate, accepted']
    rw [other_eq, loads'.run_eq]
    exact ⟨rfl, _, rfl⟩

/-! ## A call with everything -/

/-- A program that counts down, a test that it fails, and a watch list. -/
def sampleDisk : Disk :=
  ({} : Disk).put ["", "count.asm"] "@5\nD=A\n@2\nAD=D-1;JGT\n".toUTF8
    |>.put ["", "test.yml"] "expect:\n  0: 1\ntmax: 3\n".toUTF8
    |>.put ["", "watch.yml"] "3:\n  ram: [0]\n".toUTF8

def sampleArguments : List String :=
  ["count.asm", "-t", "11", "--trace", "-d", "watch.yml", "--script=test.yml"]

def sampleRequest : EmulateRequest where
  program := "count.asm"
  limit := some 11
  script := some "test.yml"
  watch := some "watch.yml"
  trace := true

def sampleRom : Rom where
  instrs := #[.load 5, .compute { d := true } (.y .a) .never, .load 2,
    .compute { a := true, d := true } .dMinusOne .gt]

/-- What the test expects, and the limit that the option goes before. -/
def sampleScript : Script where
  expect := Table.ofList [(0, 1)]
  limit := some 3

def sampleWatched : WatchList := Table.ofList [(3, { cells := [0] })]

theorem read_sampleDisk :
    sampleDisk.read "count.asm" = .ok "@5\nD=A\n@2\nAD=D-1;JGT\n".toUTF8 ∧
    sampleDisk.read "test.yml" = .ok "expect:\n  0: 1\ntmax: 3\n".toUTF8 ∧
    sampleDisk.read "watch.yml" = .ok "3:\n  ram: [0]\n".toUTF8 := by
  refine ⟨Disk.read_eq_ok_iff.2 ⟨["", "count.asm"], rfl, ?_⟩,
    Disk.read_eq_ok_iff.2 ⟨["", "test.yml"], rfl, ?_⟩,
    Disk.read_eq_ok_iff.2 ⟨["", "watch.yml"], rfl, ?_⟩⟩ <;>
  simp [sampleDisk, Disk.lookup, Disk.put, Disk.workingPlace, Table.get?_insert]

theorem loads_sampleRequest :
    sampleRequest.Loads sampleDisk sampleRom sampleScript sampleWatched := by
  rcases read_sampleDisk with ⟨program, test, watch⟩
  have rom : Rom.ofText "count.asm" "@5\nD=A\n@2\nAD=D-1;JGT\n" = .ok sampleRom := rfl
  have script : Script.ofText? "expect:\n  0: 1\ntmax: 3\n" = some sampleScript := by cbv
  have watched : WatchList.ofText? "3:\n  ram: [0]\n" = some sampleWatched := by cbv
  constructor
  case program => simp only [sampleRequest, loadProgram, program, Disk.fromUTF8?_toUTF8, rom]
  case script =>
    simp only [sampleRequest, loadConfig?, loadConfig, test, Disk.fromUTF8?_toUTF8,
      Option.bind_some, script, Except.map, Option.getD_some]
  case watched =>
    simp only [sampleRequest, loadConfig?, loadConfig, watch, Disk.fromUTF8?_toUTF8,
      Option.bind_some, watched, Except.map, Option.getD_some]

/-- The call makes eleven steps, traces them and shows the four at address three, and it finds the
mismatch; so does the call that observes nothing. -/
theorem emulate_reports_sampleRequest :
    let shown := (emulate sampleArguments sampleDisk).lines.filterMap Printed.ofLine?
    EmulateRequest.ofArguments? sampleArguments = some sampleRequest ∧
    sampleRequest.Loads sampleDisk sampleRom sampleScript sampleWatched ∧
    ((start sampleRom).executions 11).length = 11 ∧
    shown.filterMap Printed.executed? = [0, 1, 2, 3, 2, 3, 2, 3, 2, 3, 2] ∧
    shown.filterMap Printed.section? = [3, 3, 3, 3] ∧
    shown.filterMap Printed.stop? = [(false, 11)] ∧
    shown.filterMap Printed.failed? = [⟨0, 1, 0⟩] ∧
    (emulate sampleArguments sampleDisk).exitCode = 1 ∧
    (emulate ["-t11", "-s", "test.yml", "count.asm"] sampleDisk).exitCode = 1 := by
  have accepted : EmulateRequest.ofArguments? sampleArguments = some sampleRequest := rfl
  have unobserved : EmulateRequest.ofArguments? ["-t11", "-s", "test.yml", "count.asm"] =
      some { sampleRequest with trace := false, watch := none } := rfl
  have addresses : ((sampleScript.apply (start sampleRom)).executions 11).map Execution.address =
      [0, 1, 2, 3, 2, 3, 2, 3, 2, 3, 2] := rfl
  have listed (address : Word) : (sampleWatched.get? address).isSome = (3 == address) := by
    have found : sampleWatched.get? address =
        if 3 == address then some { cells := [0] } else none := by
      have inserted := Table.get?_insert ({} : WatchList) 3 address { cells := [0] }
      rwa [Table.get?_empty] at inserted
    rw [found]
    cases (3 : Word) == address <;> rfl
  have check : sampleScript.check ((sampleScript.apply (start sampleRom)).run 11).2 =
      [⟨0, 1, 0⟩] := by
    have expected : sampleScript.expect.toList = [(0, 1)] :=
      Table.toList_insert (Table.get?_empty 0) 1
    have ram : ((sampleScript.apply (start sampleRom)).run 11).2.ram = .zero := rfl
    simp [Script.check, expected, Machine.get, ram]
  obtain ⟨_, length, _, _, executed, sections, stop, failed, exitCode, atMost, same⟩ :=
    emulate_reports_run accepted loads_sampleRequest
  have code : (emulate sampleArguments sampleDisk).exitCode = 1 := by
    have fails : sampleScript.check ((sampleScript.apply (start sampleRom)).run 11).2 ≠ [] := by
      rw [check]
      exact List.cons_ne_nil _ _
    have nonzero := mt exitCode.1 fails
    omega
  refine ⟨accepted, loads_sampleRequest, length, executed.trans addresses, sections.trans ?_,
    stop.trans rfl, failed.trans check, code, ?_⟩
  · simp only [listed]
    exact congrArg (List.filter _) addresses
  · exact (same _ false none (Or.inl rfl) unobserved).1.trans code

end CommandLine

end Hack
