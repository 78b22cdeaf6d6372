import Hack.Yaml.Document

/-!
Values of YAML nodes: whole numbers, truth values, sequences and mappings. Numbers and truth values
are plain scalars. A number may have a sign and is decimal, or hexadecimal behind `0x`, octal behind
`0o`, binary behind `0b`; a decimal number of several digits does not begin with zero. A node that
is left empty counts as a sequence or a mapping without members.

An alias is followed when the value of its node is asked for, and only then; what is never asked for
may stand inside itself. The number of aliases followed is limited by the size of the document.
-/

namespace Hack.Yaml

/-- The value of a digit in a base of at most sixteen. -/
def digitValue? (base : Nat) (c : Char) : Option Nat :=
  (hexValue? c).filter (· < base)

/-- The value of a text of one or more digits in a base. -/
def digits? (base : Nat) (s : List Char) : Option Nat :=
  if s.isEmpty then none
  else s.foldlM (fun value c => (digitValue? base c).map (base * value + ·)) 0

/-- Whether a text is a decimal number of several digits that begins with zero; such a text is no
number. -/
def hasLeadingZero : List Char → Bool
  | '0' :: rest => !rest.isEmpty && rest.all Char.isDigit
  | _ => false

/-- The value of an unsigned text: a mark of its base and digits, or decimal digits. -/
def magnitude? : List Char → Option Nat
  | '0' :: 'x' :: rest => digits? 16 rest
  | '0' :: 'o' :: rest => digits? 8 rest
  | '0' :: 'b' :: rest => digits? 2 rest
  | s => if hasLeadingZero s then none else digits? 10 s

/-- A number without sign, or with a plus, of at most `limit`. -/
def readNat? (limit : Nat) (s : String) : Option Nat :=
  let found := match s.toList with
    | '+' :: rest => magnitude? rest
    | chars => magnitude? chars
  found.filter (· ≤ limit)

/-- A number with or without sign, from `low` to `high`. -/
def readInt? (low high : Int) (s : String) : Option Int :=
  let found := match s.toList with
    | '+' :: rest => (magnitude? rest).map Int.ofNat
    | '-' :: rest => (magnitude? rest).map fun n => -(n : Int)
    | chars => (magnitude? chars).map Int.ofNat
  found.filter fun n => low ≤ n && n ≤ high

/-- A reader of values. It knows the anchored nodes of a document, and how many aliases may still be
followed. -/
abbrev Decoder := ReaderT Anchors (StateT Nat Option)

namespace Node

/-- The node that a node stands for: itself, unless it is an alias. -/
def follow : Node → Decoder Node
  | .alias number => do
    let left ← get
    if left == 0 then failure
    set (left - 1)
    match (← read).node? number with
    | some node => pure node
    | none => failure
  | node => pure node

/-- The text of a scalar that may be a number or a truth value: a plain one, or a literal block with
the tag of the type. -/
def basicText? (type : String) : Node → Option String
  | .scalar .plain _ text => some text
  | .scalar .literal (some tag) text =>
    if tag == "tag:yaml.org,2002:" ++ type then some text else none
  | _ => none

/-- The number, without minus sign, that a node holds. -/
def nat (limit : Nat) (node : Node) : Decoder Nat := do
  readNat? limit (← (← node.follow).basicText? "int")

/-- The signed number that a node holds. -/
def int (low high : Int) (node : Node) : Decoder Int := do
  readInt? low high (← (← node.follow).basicText? "int")

/-- The truth value that a node holds. -/
def bool (node : Node) : Decoder Bool := do
  let text ← (← node.follow).basicText? "bool"
  if ["true", "True", "TRUE"].contains text then pure true
  else if ["false", "False", "FALSE"].contains text then pure false
  else failure

/-- The text of a scalar, however it was written. -/
def text (node : Node) : Decoder String := do
  match ← node.follow with
  | .scalar _ _ text => pure text
  | _ => failure

/-- Whether a node is an empty plain scalar. -/
def isEmpty : Node → Bool
  | .scalar .plain _ text => text.isEmpty
  | _ => false

/-- The spellings of the null value. -/
def nullTexts : List String := ["~", "null", "Null", "NULL"]

/-- A value that may be absent: an empty plain scalar and one that spells the null value say so, and
nothing else may carry the tag of the null value. -/
def optional {α : Type} (value : Node → Decoder α) (node : Node) : Decoder (Option α) := do
  match ← node.follow with
  | .scalar .plain none text =>
    if text.isEmpty || nullTexts.contains text then pure none
    else some <$> value (.scalar .plain none text)
  | .scalar .plain (some tag) text =>
    if tag == "tag:yaml.org,2002:null" then
      if nullTexts.contains text then pure none else failure
    else some <$> value (.scalar .plain (some tag) text)
  | node => some <$> value node

/-- The entries of a mapping. -/
def entries (node : Node) : Decoder (List (Node × Node)) := do
  match ← node.follow with
  | .mapping entries => pure entries
  | node => if node.isEmpty then pure [] else failure

/-- The items of a sequence. -/
def items (node : Node) : Decoder (List Node) := do
  match ← node.follow with
  | .sequence items => pure items
  | node => if node.isEmpty then pure [] else failure

/-- The fields of a record: the keys of the mapping are texts, and of the known ones none is
repeated. The value of an unknown key is never looked at. -/
def fields (known : List String) (node : Node) : Decoder (List (String × Node)) := do
  let fields ← (← node.entries).mapM fun (key, value) => do pure (← key.text, value)
  let fields := fields.filter fun field => known.contains field.1
  if (fields.map Prod.fst).Nodup then pure fields else failure

end Node

/-- The value of a document. A hundred aliases may be followed for each part that the document is
written in. -/
def Document.decode? {α : Type} (document : Document) (value : Node → Decoder α) : Option α :=
  ((value document.root).run document.anchors).run' (100 * document.root.parts)

end Hack.Yaml
