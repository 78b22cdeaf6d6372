import Hack.Register
import Hack.Word

/-!
Data memory: 32768 words. Cells outside it read as zero, and writes there are dropped.
-/

namespace Hack

/-- The words of the data memory. -/
structure Memory where
  cells : Vector Word MemoryMap.ramSize
  deriving DecidableEq

namespace Memory

/-- Memory with zero in every cell. -/
def zero : Memory := ⟨Vector.replicate MemoryMap.ramSize 0⟩

instance : Inhabited Memory := ⟨zero⟩

/-- The content of a cell. -/
def get (memory : Memory) (address : Word) : Word := memory.cells[address.toNat]?.getD 0

/-- Memory after a write to a cell. -/
def set (memory : Memory) (address value : Word) : Memory :=
  ⟨memory.cells.setIfInBounds address.toNat value⟩

/-- The cells that do not hold zero, by address. -/
def nonzero (memory : Memory) : List (Nat × Word) :=
  (memory.cells.toList.zipIdx.filter fun (value, _) => value != 0).map fun (value, n) => (n, value)

/-- Every cell of new memory holds zero. -/
@[simp] theorem get_zero (address : Word) : zero.get address = 0 := by
  simp only [get, zero, Vector.getElem?_replicate]
  split <;> rfl

/-- A write changes the cell that it names, if there is one, and no other. -/
theorem get_set (memory : Memory) (address value other : Word) :
    (memory.set address value).get other =
      if address = other ∧ address.toNat < MemoryMap.ramSize then value else memory.get other := by
  by_cases same : address = other
  · subst same
    by_cases bound : address.toNat < MemoryMap.ramSize
    · simp [get, set, bound]
    · simp [get, set, bound]
  · have differ : address.toNat ≠ other.toNat := fun h => same (BitVec.eq_of_toNat_eq h)
    simp [get, set, same, differ]

/-- A cell that gets the content that it has changes nothing. -/
theorem set_get (memory : Memory) (address : Word) :
    memory.set address (memory.get address) = memory := by
  have cells : memory.cells.setIfInBounds address.toNat (memory.get address) = memory.cells := by
    refine Vector.ext fun i bound => ?_
    rw [Vector.getElem_setIfInBounds]
    split
    · next same =>
      subst same
      rw [get, Vector.getElem?_eq_getElem bound, Option.getD_some]
    · rfl
  rw [set, cells]

/-- Of two writes to one cell the later one counts. -/
theorem set_set (memory : Memory) (address value later : Word) :
    (memory.set address value).set address later = memory.set address later := by
  unfold set
  rw [Vector.setIfInBounds_setIfInBounds]

/-- Writes to different cells can be exchanged. -/
theorem set_comm (memory : Memory) {address other : Word} (differ : address ≠ other)
    (value value' : Word) :
    (memory.set address value).set other value' =
      (memory.set other value').set address value := by
  have apart : address.toNat ≠ other.toNat := fun same => differ (BitVec.eq_of_toNat_eq same)
  unfold set
  rw [Vector.setIfInBound_comm value value' apart]

/-- Cells outside the memory read as zero. -/
theorem get_of_size_le {memory : Memory} {address : Word}
    (outside : MemoryMap.ramSize ≤ address.toNat) : memory.get address = 0 := by
  simp [get, Vector.getElem?_eq_none outside]

end Memory

end Hack
