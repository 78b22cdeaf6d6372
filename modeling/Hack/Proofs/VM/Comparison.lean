import Hack.Proofs.VM.Execution

/-!
The code of a comparison, the only compiled code that branches.

`ComparisonAt` takes the code apart at its two branches and says where the parts stand. On one way
the machine stores zero and branches over the other way, on the other it stores all bits one; both
ways end just behind the code, with the same memory up to the stored truth value
(`crosses_compare`).
-/

namespace Hack

open Assembly VM

namespace VM

/-- The command of a comparison is always compiled to the code of one. -/
theorem Compiles.eq_compare {unit : String} {command : Command} {code : Program}
    (compiled : Compiles unit command code) (compares : command.isComparison = true) :
    ∃ jump number, code = Code.compare jump (LabelPair.ofNumber number) := by
  cases compiled with
  | operate number op => cases op <;> first | exact ⟨_, _, rfl⟩ | cases compares
  | push reached => cases compares
  | pop reached popped => cases compares

namespace Code

/-- The first part of a comparison: the difference of the two values, and the label for the case
that it meets the condition. -/
def subtract (labels : LabelPair) : Program :=
  popOperands ++ [.set { d := true } (.yMinusD .m), .symbol labels.onTrue]

/-- The second part: zero for the lower value, and the label behind the code. -/
def deny (labels : LabelPair) : Program := unary .zero ++ [.symbol labels.finish]

/-- A comparison between its branches. -/
theorem compare_eq (jump : Jump) (labels : LabelPair) :
    compare jump labels =
      subtract labels ++ (.branch .d jump :: (deny labels ++
        (.branch .zero .always :: .label labels.onTrue ::
          (unary .minusOne ++ [.label labels.finish])))) := rfl

end Code

end VM

/-- The code of a comparison stands at an address of the instruction memory. -/
structure ComparisonAt (rom : Rom) (base : Nat) (jump : Jump) (labels : LabelPair) : Prop where
  subtract : rom.Placed base (Code.subtract labels)
  decides : rom.get? (base + 6) = some (.compute .none .d jump)
  deny : rom.Placed (base + 7) (Code.deny labels)
  leaves : rom.get? (base + 11) = some (.compute .none .zero .always)
  onTrue : rom.label? labels.onTrue = some (base + 12)
  affirm : rom.Placed (base + 12) (Code.unary .minusOne)
  finish : rom.label? labels.finish = some (base + 15)

theorem comparisonAt_of_placed {rom : Rom} {base : Nat} {jump : Jump} {labels : LabelPair}
    (placed : rom.Placed base (Code.compare jump labels)) : ComparisonAt rom base jump labels := by
  rw [Code.compare_eq, Rom.placed_append, Rom.placed_cons, Rom.placed_append, Rom.placed_cons,
    Rom.placed_cons, Rom.placed_append] at placed
  obtain ⟨subtract, ⟨_, linked, decides⟩, deny, ⟨_, linked', leaves⟩, onTrue, affirm, finish, _⟩ :=
    placed
  cases linked
  cases linked'
  exact ⟨subtract, decides, deny, leaves, onTrue, affirm, finish⟩

/-- A label's symbol loads the address at which it stands. -/
theorem link?_of_label? {rom : Rom} {name : String} {address : Nat}
    (label : rom.label? name = some address) :
    (Statement.symbol name).link? rom.addressOf? = some (.load (.ofNat 16 address)) := by
  have found : rom.addressOf? name = some address := by
    unfold Rom.addressOf? addressIn?
    rw [show rom.labels.get? name = some address from label]
    rfl
  rw [Statement.symbol, Statement.link?, found]
  rfl

section

variable {rom : Rom} {base : Nat} {jump : Jump} {labels : LabelPair}

theorem ComparisonAt.loads_onTrue (code : ComparisonAt rom base jump labels) :
    rom.get? (base + 5) = some (.load (.ofNat 16 (base + 12))) := by
  have placed := code.subtract
  rw [Code.subtract, Rom.placed_append] at placed
  rcases placed with ⟨_, _, ⟨instr, linked, fetched⟩, _⟩
  cases linked.symm.trans (link?_of_label? code.onTrue)
  exact fetched

theorem ComparisonAt.loads_finish (code : ComparisonAt rom base jump labels) :
    rom.get? (base + 10) = some (.load (.ofNat 16 (base + 15))) := by
  have placed := code.deny
  rw [Code.deny, Rom.placed_append] at placed
  rcases placed with ⟨_, ⟨instr, linked, fetched⟩, _⟩
  cases linked.symm.trans (link?_of_label? code.finish)
  exact fetched

theorem ComparisonAt.affirms (code : ComparisonAt rom base jump labels) :
    rom.get? (base + 14) = some (.compute { m := true } .minusOne .never) := by
  rcases code.affirm with ⟨_, _, ⟨instr, linked, fetched⟩, _⟩
  cases linked
  exact fetched

/-- The code ends within the instruction memory. -/
theorem ComparisonAt.fits (code : ComparisonAt rom base jump labels) : base + 15 ≤ rom.size :=
  (Array.getElem?_eq_some_iff.1 code.affirms).1

end

namespace Machine

/-- A branch to a place further on goes there or to the next instruction, and never halts. -/
theorem step?_branch {m : Machine} {comp : Comp} {jump : Jump} (running : m.halted = false)
    (fetched : m.rom.get? m.pc = some (.compute .none comp jump)) (ahead : m.pc < m.a.toNat) :
    m.step? = some { m with
      pc := if jump.test (comp.eval m.d (m.operand comp)) then m.a.toNat else m.pc + 1 } := by
  have differ : (m.a.toNat + 1 == m.pc) = false := beq_eq_false_iff_ne.2 (by omega)
  have goesOn : closesLoop m.rom m.pc jump m.a = false := by
    unfold closesLoop
    rw [differ, Bool.and_false, Bool.false_and]
  rw [step?_of_get? running fetched]
  simp [execute, Dest.none, goesOn, running]

theorem carryOut_label {m : Machine} {name : String} {address : Nat}
    (label : m.rom.label? name = some address) :
    m.carryOut (.symbol name) = { m with a := .ofNat 16 address, pc := m.pc + 1 } :=
  carryOut_load (link?_of_label? label)

section Ways

variable {m : Machine} {jump : Jump} {labels : LabelPair}

theorem follow_subtract (names : m.rom.Conventional) {address : Nat}
    (label : m.rom.label? labels.onTrue = some address) :
    m.follow (Code.subtract labels) =
      { m with
        a := .ofNat 16 address
        d := (Stack.lower m.ram).get (Stack.pointer m.ram - 1 - 1) -
          (Stack.lower m.ram).get (Stack.pointer m.ram - 1)
        ram := Stack.lower m.ram
        pc := m.pc + 6 } := by
  rw [Code.subtract, follow_append, follow_popOperands names, follow_cons, carryOut_set,
    follow_cons, carryOut_label]
  · rfl
  · exact label

theorem follow_deny (names : m.rom.Conventional) {address : Nat}
    (label : m.rom.label? labels.finish = some address) :
    m.follow (Code.deny labels) =
      { m with
        a := .ofNat 16 address
        ram := m.ram.set (Stack.pointer m.ram - 1) 0
        pc := m.pc + 4 } := by
  rw [Code.deny, follow_append, follow_unary names, follow_cons, carryOut_label]
  · rfl
  · exact label

/-- From the first branch on, a difference that does not meet the condition leaves zero. -/
theorem steps_deny {base : Nat} (code : ComparisonAt m.rom base jump labels)
    (names : m.rom.Conventional) (place : m.pc = base + 6) (ahead : m.pc < m.a.toNat)
    (running : m.halted = false) (untaken : jump.test m.d = false) :
    ∃ n ≤ 6, ∃ last, Steps n m last ∧ last.pc = base + 15 ∧ last.halted = false ∧
      last.ram = m.ram.set (Stack.pointer m.ram - 1) 0 := by
  have bound : base + 15 < 2 ^ 16 :=
    Nat.lt_of_le_of_lt (Nat.le_trans code.fits names.size_le) (by decide)
  have aim : (BitVec.ofNat 16 (base + 15)).toNat = base + 15 := Nat.mod_eq_of_lt bound
  have fetched : m.rom.get? m.pc = some (.compute .none .d jump) := by
    rw [place]
    exact code.decides
  have decided := step?_branch running fetched ahead
  rw [show Comp.eval .d m.d (m.operand .d) = m.d from rfl, untaken, if_neg Bool.false_ne_true,
    place] at decided
  have denied := crosses_follow (m := { m with pc := base + 7 }) code.deny rfl running
  rw [follow_deny (m := { m with pc := base + 7 }) names code.finish] at denied
  have further : base + 11 < (BitVec.ofNat 16 (base + 15)).toNat := by
    rw [aim]
    exact Nat.add_lt_add_left (by decide) base
  have left := step?_branch denied.running code.leaves further
  rw [show Jump.test .always _ = true from rfl, if_pos rfl, aim] at left
  rcases denied.steps with ⟨n, few, steps⟩
  exact ⟨n + 1 + 1, Nat.succ_le_succ (Nat.succ_le_succ few), _,
    .head decided (steps.trans (.single left)), rfl, running, rfl⟩

/-- From the first branch on, a difference that meets the condition leaves all bits one. -/
theorem steps_affirm {base : Nat} (code : ComparisonAt m.rom base jump labels)
    (names : m.rom.Conventional) (place : m.pc = base + 6) (aim : m.a.toNat = base + 12)
    (running : m.halted = false) (taken : jump.test m.d = true) :
    ∃ n ≤ 4, ∃ last, Steps n m last ∧ last.pc = base + 15 ∧ last.halted = false ∧
      last.ram = m.ram.set (Stack.pointer m.ram - 1) (-1) := by
  have fetched : m.rom.get? m.pc = some (.compute .none .d jump) := by
    rw [place]
    exact code.decides
  have decided := step?_branch running fetched (by omega)
  rw [show Comp.eval .d m.d (m.operand .d) = m.d from rfl, taken, if_pos rfl, aim] at decided
  have affirmed := crosses_follow (m := { m with pc := base + 12 }) code.affirm rfl running
  rw [follow_unary (m := { m with pc := base + 12 }) names] at affirmed
  rcases affirmed.steps with ⟨n, few, steps⟩
  exact ⟨n + 1, Nat.succ_le_succ few, _, .head decided steps, rfl, running, rfl⟩

/-- The code of a comparison tells whether the difference of the two values meets the condition,
whichever way its branches go. -/
theorem crosses_compare (placed : m.rom.Placed m.pc (Code.compare jump labels))
    (names : m.rom.Conventional) (running : m.halted = false) :
    ∃ last, Crosses m (Code.compare jump labels) last ∧
      last.ram = (Stack.lower m.ram).set (Stack.pointer m.ram - 1 - 1)
        (truth (jump.test ((Stack.lower m.ram).get (Stack.pointer m.ram - 1 - 1) -
          (Stack.lower m.ram).get (Stack.pointer m.ram - 1)))) := by
  have code := comparisonAt_of_placed placed
  have bound : m.pc + 15 < 2 ^ 16 :=
    Nat.lt_of_le_of_lt (Nat.le_trans code.fits names.size_le) (by decide)
  have aim : (BitVec.ofNat 16 (m.pc + 12)).toNat = m.pc + 12 := Nat.mod_eq_of_lt (by omega)
  have state := follow_subtract names code.onTrue
  have subtracted := crosses_follow code.subtract rfl running
  -- both ways start from the same machine, of which only these parts matter
  generalize m.follow (Code.subtract labels) = middle at state subtracted
  have codeThen : ComparisonAt middle.rom m.pc jump labels := by rw [state]; exact code
  have namesThen : middle.rom.Conventional := by rw [state]; exact names
  have place : middle.pc = m.pc + 6 := by rw [state]
  have target : middle.a.toNat = m.pc + 12 := by rw [state]; exact aim
  rcases subtracted.steps with ⟨n, few, first⟩
  have crosses {k : Nat} {last : Machine} (fewer : k ≤ 6) (back : Steps k middle last)
      (ended : last.pc = m.pc + 15) (still : last.halted = false) :
      Crosses m (Code.compare jump labels) last := by
    have total : n + k ≤ 6 + 6 := Nat.add_le_add few fewer
    exact ⟨⟨n + k, Nat.le_trans total (by decide : 12 ≤ 15), first.trans back⟩, ended, still⟩
  have difference : middle.d = (Stack.lower m.ram).get (Stack.pointer m.ram - 1 - 1) -
      (Stack.lower m.ram).get (Stack.pointer m.ram - 1) := by rw [state]
  have ram : middle.ram = Stack.lower m.ram := by rw [state]
  rw [← difference]
  cases outcome : jump.test middle.d with
  | false =>
    obtain ⟨k, fewer, last, back, ended, still, changed⟩ :=
      steps_deny codeThen namesThen place (by omega) subtracted.running outcome
    rw [ram, Stack.pointer_lower] at changed
    exact ⟨last, crosses fewer back ended still, changed⟩
  | true =>
    obtain ⟨k, fewer, last, back, ended, still, changed⟩ :=
      steps_affirm codeThen namesThen place target subtracted.running outcome
    rw [ram, Stack.pointer_lower] at changed
    exact ⟨last, crosses (Nat.le_trans fewer (by decide)) back ended still, changed⟩

end Ways

end Machine

end Hack
