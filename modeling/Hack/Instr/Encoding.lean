import Hack.Instr.Basic

/-!
The machine words of instructions. A word whose top bit is clear loads its lower fifteen bits.
Otherwise the three top bits are set, bit 12 tells whether the second operand comes from memory,
bits 11 to 6 hold the code of the operation, bits 5, 4, 3 the destinations `A`, `D`, `M`, and bits
2, 1, 0 the code of the branch condition.

`decode` is the inverse reading. It answers nothing for a word whose operation code stands for no
computation, or for a computation without second operand whose memory bit is set.
-/

namespace Hack

/-- The six bits that select the operation; both sources of an operand share them. -/
def Comp.code : Comp → BitVec 6
  | .zero => 0b101010
  | .one => 0b111111
  | .minusOne => 0b111010
  | .d => 0b001100
  | .y _ => 0b110000
  | .notD => 0b001101
  | .notY _ => 0b110001
  | .negD => 0b001111
  | .negY _ => 0b110011
  | .dPlusOne => 0b011111
  | .yPlusOne _ => 0b110111
  | .dMinusOne => 0b001110
  | .yMinusOne _ => 0b110010
  | .dPlusY _ => 0b000010
  | .dMinusY _ => 0b010011
  | .yMinusD _ => 0b000111
  | .dAndY _ => 0b000000
  | .dOrY _ => 0b010101

/-- The three bits of the destinations. -/
def Dest.code (dest : Dest) : BitVec 3 :=
  BitVec.ofBool dest.a ++ BitVec.ofBool dest.d ++ BitVec.ofBool dest.m

/-- The three bits of the branch condition. -/
def Jump.code : Jump → BitVec 3
  | .never => 0b000
  | .gt => 0b001
  | .eq => 0b010
  | .ge => 0b011
  | .lt => 0b100
  | .ne => 0b101
  | .le => 0b110
  | .always => 0b111

namespace Instr

/-- The word of an instruction. A loaded value keeps its lower fifteen bits only. -/
def encode : Instr → Word
  | .load value => 0b0#1 ++ value.setWidth 15
  | .compute dest comp jump =>
    0b111#3 ++ BitVec.ofBool comp.readsMemory ++ comp.code ++ dest.code ++ jump.code

/-- The computation with a memory bit and an operation code. -/
def decodeComp? (memory : Bool) (code : BitVec 6) : Option Comp :=
  Comp.all.find? fun comp => comp.readsMemory == memory && comp.code == code

/-- The destination with the given bits. -/
def decodeDest (code : BitVec 3) : Dest :=
  { a := code.getLsbD 2, d := code.getLsbD 1, m := code.getLsbD 0 }

/-- The branch condition with the given bits. -/
def decodeJump (code : BitVec 3) : Jump :=
  if code = 0b000 then .never
  else if code = 0b001 then .gt
  else if code = 0b010 then .eq
  else if code = 0b011 then .ge
  else if code = 0b100 then .lt
  else if code = 0b101 then .ne
  else if code = 0b110 then .le
  else .always

/-- The instruction that a word stands for. -/
def decode? (word : Word) : Option Instr :=
  if word.getLsbD 15 then
    (decodeComp? (word.getLsbD 12) (word.extractLsb' 6 6)).map fun comp =>
      .compute (decodeDest (word.extractLsb' 3 3)) comp (decodeJump (word.extractLsb' 0 3))
  else some (.load word)

theorem decodeDest_code (dest : Dest) : decodeDest dest.code = dest := by
  rcases dest with ⟨a, d, m⟩
  cases a <;> cases d <;> cases m <;> decide

theorem decodeJump_code (jump : Jump) : decodeJump jump.code = jump := by
  cases jump <;> decide

theorem decodeComp?_code (comp : Comp) : decodeComp? comp.readsMemory comp.code = some comp := by
  cases comp <;> (try rename_i source; cases source) <;> decide

end Instr

end Hack
