/-!
The destination of a computation: any set of the two registers `A` and `D` and the memory cell `M`.
-/

namespace Hack

/-- The places that receive the result of a computation. -/
structure Dest where
  a : Bool := false
  d : Bool := false
  m : Bool := false
  deriving DecidableEq, Repr

namespace Dest

/-- No place at all: the result only decides the branch. -/
def none : Dest := {}

/-- Every destination, in the order of the codes of their bits `A`, `D`, `M`. -/
def all : List Dest :=
  [{}, { m := true }, { d := true }, { d := true, m := true }, { a := true },
   { a := true, m := true }, { a := true, d := true }, { a := true, d := true, m := true }]

/-- The canonical spelling; that of no place is empty. -/
def text : Dest → String
  | ⟨false, false, false⟩ => ""
  | ⟨false, false, true⟩ => "M"
  | ⟨false, true, false⟩ => "D"
  | ⟨false, true, true⟩ => "MD"
  | ⟨true, false, false⟩ => "A"
  | ⟨true, false, true⟩ => "AM"
  | ⟨true, true, false⟩ => "AD"
  | ⟨true, true, true⟩ => "AMD"

/-- The second spelling of the destinations with two places. -/
def swapped : List (String × Dest) :=
  [("DM", { d := true, m := true }), ("MA", { a := true, m := true }),
   ("DA", { a := true, d := true })]

/-- The destination that a text spells; three places have one spelling only. -/
def ofText? (s : String) : Option Dest :=
  (all.find? fun dest => dest.text == s).or (swapped.lookup s)

theorem mem_all (dest : Dest) : dest ∈ all := by
  rcases dest with ⟨a, d, m⟩
  cases a <;> cases d <;> cases m <;> decide

/-- The canonical spelling is read back as the destination. -/
theorem ofText?_text (dest : Dest) : ofText? dest.text = some dest := by
  rcases dest with ⟨a, d, m⟩
  cases a <;> cases d <;> cases m <;> decide

end Dest

end Hack
