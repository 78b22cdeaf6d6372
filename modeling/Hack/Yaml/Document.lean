import Hack.Yaml.Anchors
import Hack.Yaml.Token

/-!
YAML documents. A text holds one document at most; its tokens are read by recursive descent. A node
that is left out is an empty plain scalar, and so is the root of an empty text.
-/

namespace Hack.Yaml

/-- A document: its tree, and the nodes that the aliases in it stand for. -/
structure Document where
  root : Node
  anchors : Anchors

namespace Document

/-- What is left to read of a text, and what was entered of the part before it. -/
structure Reading where
  tokens : List Token
  anchors : Anchors := {}
  /-- The handles that tags may use, with the texts that they abbreviate. -/
  handles : List (String × String) := []

/-- A reader of a part of a document. -/
abbrev Reader := StateT Reading Option

/-- The next token. -/
def peek : Reader Token := do
  match (← get).tokens with
  | t :: _ => pure t
  | [] => failure

/-- Passes over the next token. -/
def drop : Reader Unit := modify fun r => { r with tokens := r.tokens.tail }

/-- Passes over the next token if it is the given one; tells whether it was. -/
def dropIf (t : Token) : Reader Bool := do
  if (← peek) == t then
    drop
    pure true
  else pure false

/-- Whether the next token is among the given ones. -/
def peekIn (ts : List Token) : Reader Bool := do pure (ts.contains (← peek))

/-- Passes over the comma before an item of a flow collection, which the first item does not have;
tells whether the item may follow. -/
def separated (first : Bool) : Reader Bool := if first then pure true else dropIf .flowEntry

/-- The anchor and the tag before a node. -/
structure Properties where
  anchor : Option String := none
  tag : Option String := none

/-- The full text of a tag; its handle must be known. -/
def fullTag (handle suffix : String) : Reader String := do
  if handle.isEmpty then pure suffix
  else
    match (← get).handles.lookup handle with
    | some start => pure (start ++ suffix)
    | none => failure

/-- Reads an anchor and a tag, in either order, if they are there. -/
def properties : Reader Properties := do
  match ← peek with
  | .anchor name =>
    drop
    match ← peek with
    | .tag handle suffix =>
      drop
      pure ⟨some name, some (← fullTag handle suffix)⟩
    | _ => pure ⟨some name, none⟩
  | .tag handle suffix =>
    drop
    match ← peek with
    | .anchor name =>
      drop
      pure ⟨some name, some (← fullTag handle suffix)⟩
    | _ => pure ⟨none, some (← fullTag handle suffix)⟩
  | _ => pure {}

/-- Reads a node that may have a name. The name is known from the start of the node on, so that the
node may stand inside itself. -/
def named (anchor : Option String) (content : Reader Node) : Reader Node := do
  match anchor with
  | none => content
  | some name =>
    modify fun r => { r with anchors := r.anchors.start name }
    let node ← content
    modify fun r => { r with anchors := r.anchors.finish node }
    pure node

mutual

/-- Reads a node. Block collections may start only outside flow brackets, and a sequence without
indentation only as a key or a value of a block mapping. The tag `!` of a scalar says nothing. -/
def read (isBlock bareSequence : Bool) : Nat → Reader Node
  | 0 => failure
  | fuel + 1 => do
    if let .alias name := ← peek then
      drop
      match (← get).anchors.number? name with
      | some number => pure (.alias number)
      | none => failure
    else
      let ⟨anchor, tag⟩ ← properties
      match ← peek with
      | .blockEntry =>
        if bareSequence then named anchor (.sequence <$> bareItems fuel) else absent anchor tag
      | .scalar form text =>
        drop
        named anchor (pure (.scalar form (tag.filter (· != "!")) text))
      | .flowSequenceStart =>
        drop
        named anchor (.sequence <$> flowItems true fuel)
      | .flowMappingStart =>
        drop
        named anchor (.mapping <$> flowEntries true fuel)
      | .blockSequenceStart =>
        if isBlock then
          drop
          named anchor (.sequence <$> blockItems fuel)
        else absent anchor tag
      | .blockMappingStart =>
        if isBlock then
          drop
          named anchor (.mapping <$> blockEntries fuel)
        else absent anchor tag
      | _ => absent anchor tag
where
  /-- A node whose content is missing: an anchor or a tag must be there for it. -/
  absent (anchor tag : Option String) : Reader Node :=
    if anchor.isSome || tag.isSome then named anchor (pure (.scalar .plain tag "")) else failure

/-- Reads the items of a block sequence. -/
def blockItems : Nat → Reader (List Node)
  | 0 => failure
  | fuel + 1 => do
    if ← dropIf .blockEnd then pure []
    else if ← dropIf .blockEntry then
      let item ← if ← peekIn [.blockEntry, .blockEnd] then pure Node.empty else read true false fuel
      pure (item :: (← blockItems fuel))
    else failure

/-- Reads the items of a sequence that stands at the column of its mapping. -/
def bareItems : Nat → Reader (List Node)
  | 0 => failure
  | fuel + 1 => do
    if ← dropIf .blockEntry then
      let item ← if ← peekIn [.blockEntry, .key, .value, .blockEnd] then pure Node.empty
        else read true false fuel
      pure (item :: (← bareItems fuel))
    else pure []

/-- Reads the entries of a block mapping. -/
def blockEntries : Nat → Reader (List (Node × Node))
  | 0 => failure
  | fuel + 1 => do
    if ← dropIf .blockEnd then pure []
    else if ← dropIf .key then
      let ends := [Token.key, .value, .blockEnd]
      let key ← if ← peekIn ends then pure Node.empty else read true true fuel
      let value ← if ← dropIf .value then
          if ← peekIn ends then pure Node.empty else read true true fuel
        else pure Node.empty
      pure ((key, value) :: (← blockEntries fuel))
    else failure

/-- Reads the items of a flow sequence; an item that is a key with its value is a mapping of one
entry. A key that is left out takes the token behind its question mark with it. -/
def flowItems (first : Bool) : Nat → Reader (List Node)
  | 0 => failure
  | fuel + 1 => do
    if ← dropIf .flowSequenceEnd then pure []
    else if !(← separated first) then failure
    else if ← dropIf .flowSequenceEnd then pure []
    else if ← dropIf .key then
      let key ← if ← peekIn [.value, .flowEntry, .flowSequenceEnd] then
          drop
          pure Node.empty
        else read false false fuel
      let value ← if ← dropIf .value then
          if ← peekIn [.flowEntry, .flowSequenceEnd] then pure Node.empty else read false false fuel
        else pure Node.empty
      pure (.mapping [(key, value)] :: (← flowItems false fuel))
    else
      let item ← read false false fuel
      pure (item :: (← flowItems false fuel))

/-- Reads the entries of a flow mapping; a node without sign before it is a key without value. -/
def flowEntries (first : Bool) : Nat → Reader (List (Node × Node))
  | 0 => failure
  | fuel + 1 => do
    if ← dropIf .flowMappingEnd then pure []
    else if !(← separated first) then failure
    else if ← dropIf .flowMappingEnd then pure []
    else if ← dropIf .key then
      let ends := [Token.flowEntry, .flowMappingEnd]
      let key ← if ← peekIn (.value :: ends) then pure Node.empty else read false false fuel
      let value ← if ← dropIf .value then
          if ← peekIn ends then pure Node.empty else read false false fuel
        else pure Node.empty
      pure ((key, value) :: (← flowEntries false fuel))
    else
      let key ← read false false fuel
      pure ((key, Node.empty) :: (← flowEntries false fuel))

end

/-! ## Documents -/

/-- The handles that every document knows. -/
def standardHandles : List (String × String) := [("!", "!"), ("!!", "tag:yaml.org,2002:")]

/-- Reads the directives before a document and tells whether there was one: at most one version,
1.1 or 1.2, and no handle twice. -/
def directives (versionSeen : Bool) (handles : List (String × String)) :
    List Token → Option (Bool × List (String × String) × List Token)
  | .version major minor :: rest =>
    if versionSeen || major != 1 || (minor != 1 && minor != 2) then none
    else (directives true handles rest).map fun (_, found) => (true, found)
  | .tagHandle handle start :: rest =>
    if (handles.lookup handle).isSome then none
    else
      (directives versionSeen ((handle, start) :: handles) rest).map fun (_, found) => (true, found)
  | tokens => some (false, handles, tokens)

/-- The document in a list of tokens. Without a start mark it must not be empty, directives need a
start mark, and nothing but end marks may follow it. -/
def ofTokens? (tokens : List Token) : Option Document := do
  let (directed, handles, rest) ← directives false [] tokens
  let fuel := 2 * tokens.length + 2
  let start : Reading := { tokens := rest, handles := handles ++ standardHandles }
  let (root, left) ←
    match rest with
    | .documentStart :: rest =>
      match rest with
      | t :: _ =>
        match t with
        | .version .. | .tagHandle .. | .documentStart | .documentEnd | .streamEnd =>
          some (Node.empty, { start with tokens := rest })
        | _ => (read true false fuel).run { start with tokens := rest }
      | [] => none
    | _ =>
      if directed then none
      else if rest == [.streamEnd] then some (Node.empty, start)
      else (read true false fuel).run start
  if left.tokens.dropWhile (· == .documentEnd) == [.streamEnd] then some ⟨root, left.anchors⟩
  else none

/-- The document in a text. -/
def ofText? (s : String) : Option Document := do ofTokens? (← tokens? s).toList

end Document

end Hack.Yaml
