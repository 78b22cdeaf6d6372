import Hack.Machine.Memory
import Hack.Rom.Basic

/-!
The Hack machine: instruction memory, data memory, the registers `A` and `D`, the program counter
and a flag that tells whether it has halted.

The machine stops in two ways. It runs off the end of its instruction memory, or it branches always
to a load of the very address branched to, just before the branch: the loop of two instructions that
ends a program. `execute` carries out one instruction whatever the flag says, `step` only while the
machine has not stopped.
-/

namespace Hack

/-- The state of the machine. -/
structure Machine where
  rom : Rom
  ram : Memory
  a : Word
  d : Word
  pc : Nat
  halted : Bool

namespace Machine

/-- The machine at the start of a program, with zero everywhere. -/
def start (rom : Rom) : Machine :=
  { rom, ram := .zero, a := 0, d := 0, pc := 0, halted := false }

/-- The content of a cell of the data memory. -/
def get (m : Machine) (address : Word) : Word := m.ram.get address

/-- The machine after a write from outside. -/
def set (m : Machine) (address value : Word) : Machine :=
  { m with ram := m.ram.set address value }

/-- The content of a register's cell. -/
def register (m : Machine) (register : Register) : Word := m.get register.cell

/-- Whether the machine has halted or its program counter has left the program. -/
def stopped (m : Machine) : Bool := m.halted || decide (m.rom.size ≤ m.pc)

/-- Whether a branch from `pc` to `target` closes the loop that ends a program: it is taken always,
and the instruction before it, to which it leads, loads the address of that instruction. -/
def closesLoop (rom : Rom) (pc : Nat) (jump : Jump) (target : Word) : Bool :=
  jump == .always && target.toNat + 1 == pc && rom.get? target.toNat == some (.load target)

/-- The second operand of a computation. -/
def operand (m : Machine) (comp : Comp) : Word :=
  if comp.readsMemory then m.ram.get m.a else m.a

/-- Carries out an instruction, whether or not the machine has stopped. Memory and branches use the
content of `A` before the instruction. -/
def execute (m : Machine) : Instr → Machine
  | .load value => { m with a := value, pc := m.pc + 1 }
  | .compute dest comp jump =>
    let target := m.a
    let out := comp.eval m.d (m.operand comp)
    let taken := jump.test out
    { m with
      ram := if dest.m then m.ram.set target out else m.ram
      a := if dest.a then out else target
      d := if dest.d then out else m.d
      pc := if taken then target.toNat else m.pc + 1
      halted := if taken then closesLoop m.rom m.pc jump target else m.halted }

/-- The machine after the instruction at its program counter, as if it had not halted; off the end
of the program it stays as it is. -/
def advance (m : Machine) : Machine :=
  match m.rom.get? m.pc with
  | some instr => m.execute instr
  | none => m

/-- The next instruction, unless the machine has stopped. -/
def current? (m : Machine) : Option Instr := if m.halted then none else m.rom.get? m.pc

/-- One step: nothing once the machine has stopped. -/
def step? (m : Machine) : Option Machine := m.current?.map m.execute

/-- The machine takes no step exactly once it has stopped. -/
theorem step?_eq_none_iff (m : Machine) : m.step? = none ↔ m.stopped = true := by
  cases halted : m.halted with
  | true => simp [step?, current?, stopped, halted]
  | false =>
    simp only [step?, current?, stopped, halted, Option.map_eq_none_iff, Bool.false_or]
    exact Array.getElem?_eq_none_iff.trans decide_eq_true_iff.symm

/-- Runs the machine until it stops or `limit` instructions were executed, `count` of which were
executed before; the answer is the number of instructions executed and the machine after them. -/
def runFrom (count : Nat) (m : Machine) : Nat → Nat × Machine
  | 0 => (count, m)
  | limit + 1 =>
    match m.current? with
    | some instr => runFrom (count + 1) (m.execute instr) limit
    | none => (count, m)

/-- Runs the machine for at most `limit` instructions. -/
def run (limit : Nat) (m : Machine) : Nat × Machine := runFrom 0 m limit

end Machine

end Hack
