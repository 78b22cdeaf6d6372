import Hack.Instr.Encoding

/-!
Instructions read back from their words.

The fields of a computation stand side by side in its word, and each is found again at its place
(`extract_comp`, `extract_dest`, `extract_jump`), so a computation is always read back. A loaded
value has fifteen bits of the word: a load is read back exactly if its value has no more.
-/

namespace Hack.Instr

/-- A loaded value leaves the top bit of its word free. -/
def Fits : Instr → Prop
  | .load value => value.toNat ≤ Word.maxLiteral
  | .compute .. => True

instance : DecidablePred Fits
  | .load value => inferInstanceAs (Decidable (value.toNat ≤ Word.maxLiteral))
  | .compute .. => inferInstanceAs (Decidable True)

/-! ## The word of a load -/

theorem toNat_encode_load (value : Word) :
    (encode (.load value)).toNat = value.toNat % (Word.maxLiteral + 1) := by
  show (0b0#1 ++ value.setWidth 15).toNat = _
  rw [BitVec.toNat_append, BitVec.toNat_setWidth]
  exact Nat.zero_or _

/-- A value of fifteen bits is its own word. -/
theorem encode_load {value : Word} (fits : value.toNat ≤ Word.maxLiteral) :
    encode (.load value) = value := by
  refine BitVec.eq_of_toNat_eq ?_
  rw [toNat_encode_load, Nat.mod_eq_of_lt (Nat.lt_succ_of_le fits)]

theorem getLsbD_top_load (value : Word) : (encode (.load value)).getLsbD 15 = false := by
  unfold encode
  rw [BitVec.getLsbD_append]
  rfl

/-! ## The fields of a computation -/

section Fields

variable (dest : Dest) (comp : Comp) (jump : Jump)

theorem getLsbD_top_compute : (encode (.compute dest comp jump)).getLsbD 15 = true := by
  unfold encode
  simp only [BitVec.getLsbD_append]
  rfl

theorem getLsbD_source : (encode (.compute dest comp jump)).getLsbD 12 = comp.readsMemory := by
  unfold encode
  simp only [BitVec.getLsbD_append]
  cases comp.readsMemory <;> rfl

theorem extract_comp : (encode (.compute dest comp jump)).extractLsb' 6 6 = comp.code := by
  unfold encode
  rw [BitVec.extractLsb'_append_eq_of_le (by decide),
    BitVec.extractLsb'_append_eq_of_le (by decide), BitVec.extractLsb'_append_eq_right]

theorem extract_dest : (encode (.compute dest comp jump)).extractLsb' 3 3 = dest.code := by
  unfold encode
  rw [BitVec.extractLsb'_append_eq_of_le (by decide), BitVec.extractLsb'_append_eq_right]

theorem extract_jump : (encode (.compute dest comp jump)).extractLsb' 0 3 = jump.code := by
  unfold encode
  rw [BitVec.extractLsb'_append_eq_right]

end Fields

/-! ## Reading words back -/

/-- An instruction is read back from its word exactly if a value that it loads has fifteen bits. -/
theorem decode?_encode_iff {instr : Instr} : decode? instr.encode = some instr ↔ instr.Fits := by
  cases instr with
  | load value =>
    simp only [decode?, getLsbD_top_load, Bool.false_eq_true, if_false, Option.some.injEq,
      Instr.load.injEq, Fits]
    refine ⟨fun same => ?_, encode_load⟩
    -- the word has fifteen bits, whatever is loaded
    rw [← same, toNat_encode_load]
    exact Nat.le_of_lt_succ (Nat.mod_lt _ (Nat.succ_pos _))
  | compute dest comp jump =>
    simp only [decode?, getLsbD_top_compute, getLsbD_source, extract_comp, extract_dest,
      extract_jump, decodeComp?_code, decodeDest_code, decodeJump_code, if_true, Option.map_some,
      Fits]

/-- Instructions that are read back have different words if they are different. -/
theorem Fits.eq_of_encode {instr other : Instr} (left : instr.Fits) (right : other.Fits)
    (same : instr.encode = other.encode) : instr = other := by
  have read := decode?_encode_iff.2 left
  rw [same, decode?_encode_iff.2 right] at read
  exact (Option.some.inj read).symm

end Hack.Instr
