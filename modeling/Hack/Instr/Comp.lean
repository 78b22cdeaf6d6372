import Hack.Word

/-!
The computations of the arithmetic unit. A computation combines the `D` register with a second
operand `y`, which is either the `A` register or the memory cell that `A` addresses; a few
computations use one of the two only, or neither.
-/

namespace Hack

/-- Where the second operand of a computation comes from. -/
inductive Source
  | a
  | m
  deriving DecidableEq, Repr

/-- A computation; those that use the second operand name its source. -/
inductive Comp
  | zero
  | one
  | minusOne
  | d
  | y (source : Source)
  | notD
  | notY (source : Source)
  | negD
  | negY (source : Source)
  | dPlusOne
  | yPlusOne (source : Source)
  | dMinusOne
  | yMinusOne (source : Source)
  | dPlusY (source : Source)
  | dMinusY (source : Source)
  | yMinusD (source : Source)
  | dAndY (source : Source)
  | dOrY (source : Source)
  deriving DecidableEq, Repr

namespace Comp

/-- Every computation, the constants first and the logical ones last. -/
def all : List Comp :=
  [.zero, .one, .minusOne, .d, .y .a, .y .m, .notD, .notY .a, .notY .m, .negD, .negY .a, .negY .m,
   .dPlusOne, .yPlusOne .a, .yPlusOne .m, .dMinusOne, .yMinusOne .a, .yMinusOne .m,
   .dPlusY .a, .dPlusY .m, .dMinusY .a, .dMinusY .m, .yMinusD .a, .yMinusD .m,
   .dAndY .a, .dAndY .m, .dOrY .a, .dOrY .m]

/-- The canonical spelling. -/
def text : Comp → String
  | .zero => "0"
  | .one => "1"
  | .minusOne => "-1"
  | .d => "D"
  | .y .a => "A"
  | .y .m => "M"
  | .notD => "!D"
  | .notY .a => "!A"
  | .notY .m => "!M"
  | .negD => "-D"
  | .negY .a => "-A"
  | .negY .m => "-M"
  | .dPlusOne => "D+1"
  | .yPlusOne .a => "A+1"
  | .yPlusOne .m => "M+1"
  | .dMinusOne => "D-1"
  | .yMinusOne .a => "A-1"
  | .yMinusOne .m => "M-1"
  | .dPlusY .a => "D+A"
  | .dPlusY .m => "D+M"
  | .dMinusY .a => "D-A"
  | .dMinusY .m => "D-M"
  | .yMinusD .a => "A-D"
  | .yMinusD .m => "M-D"
  | .dAndY .a => "D&A"
  | .dAndY .m => "D&M"
  | .dOrY .a => "D|A"
  | .dOrY .m => "D|M"

/-- The second spelling of the computations whose operands may be swapped. -/
def swapped : List (String × Comp) :=
  [("A+D", .dPlusY .a), ("M+D", .dPlusY .m), ("A&D", .dAndY .a), ("M&D", .dAndY .m),
   ("A|D", .dOrY .a), ("M|D", .dOrY .m)]

/-- The computation that a text spells, canonically or with its operands swapped. -/
def ofText? (s : String) : Option Comp :=
  (all.find? fun comp => comp.text == s).or (swapped.lookup s)

/-- The source of the second operand, if the computation uses it. -/
def source? : Comp → Option Source
  | .zero | .one | .minusOne | .d | .notD | .negD | .dPlusOne | .dMinusOne => none
  | .y source | .notY source | .negY source | .yPlusOne source | .yMinusOne source
  | .dPlusY source | .dMinusY source | .yMinusD source | .dAndY source | .dOrY source => some source

/-- Whether the computation reads the addressed memory cell. -/
def readsMemory (comp : Comp) : Bool := comp.source? == some .m

/-- The result for the content `x` of the `D` register and the second operand `v`. -/
def eval (comp : Comp) (x v : Word) : Word :=
  match comp with
  | .zero => 0
  | .one => 1
  | .minusOne => -1
  | .d => x
  | .y _ => v
  | .notD => ~~~x
  | .notY _ => ~~~v
  | .negD => -x
  | .negY _ => -v
  | .dPlusOne => x + 1
  | .yPlusOne _ => v + 1
  | .dMinusOne => x - 1
  | .yMinusOne _ => v - 1
  | .dPlusY _ => x + v
  | .dMinusY _ => x - v
  | .yMinusD _ => v - x
  | .dAndY _ => x &&& v
  | .dOrY _ => x ||| v

theorem mem_all (comp : Comp) : comp ∈ all := by
  cases comp <;> (try rename_i source; cases source) <;> decide

/-- The canonical spelling is read back as the computation. -/
theorem ofText?_text (comp : Comp) : ofText? comp.text = some comp := by
  cases comp <;> (try rename_i source; cases source) <;> decide

end Comp

end Hack
