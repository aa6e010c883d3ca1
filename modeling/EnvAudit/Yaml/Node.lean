import EnvAudit.Yaml.Tag
import EnvAudit.Yaml.Token

/-!
# Nodes of a document

A document is one node: a scalar, a sequence of nodes, a mapping from nodes to nodes, or an alias
for a node that came before under an anchor. `Node.ofTokens` reads it from the tokens; a file with
more than one document has none.
-/
namespace EnvAudit.Yaml

/-- A node of a document. -/
inductive Node where
  | scalar (anchor : Option Text) (tag : Tag) (text : Text)
  | sequence (anchor : Option Text) (tag : Tag) (items : List Node)
  | mapping (anchor : Option Text) (tag : Tag) (entries : List (Node × Node))
  /-- The node that came before under an anchor. -/
  | alias (name : Text)
deriving Repr, Inhabited

namespace Node

/-- The tokens of a document that is being read, with what is known so far. -/
structure Reading where
  tokens : List Token
  /-- What tags with a handle start with, by handle. -/
  handles : List (Text × Text)
  /-- The anchors so far. -/
  anchors : List Text

/-- A step of reading. -/
abbrev Read := StateT Reading (Except Fault)

/-- What cannot be read. -/
def refuse {α : Type} : Read α := throw .malformed

/-- The next token; at the end of the document there is none. -/
def peek : Read (Option Token) := fun r =>
  match r.tokens with
  | .broken f :: _ => .error f
  | token :: _ => .ok (some token, r)
  | [] => .ok (none, r)

/-- Goes on behind the next token. -/
def drop : Read Unit := modify fun r => { r with tokens := r.tokens.tail }

/-- Whether one of these tokens comes next. -/
def nextIs (tokens : List Token) : Read Bool := do
  match ← peek with
  | some t => return tokens.contains t
  | none => return false

/-- Goes on behind a token if it comes next. -/
def take (token : Token) : Read Bool := do
  if ← nextIs [token] then
    drop
    return true
  else return false

/-- What stands for a node that is left out. -/
def absent : Node := .scalar none .null []

/-! ## Tags and anchors -/

/-- The handles that need no directive. -/
def commonHandles : List (Text × Text) := [(['!'], ['!']), (['!', '!'], Tag.common)]

/-- The full name of a tag. -/
def tagName (handle : Option Text) (suffix : Text) : Read Text := do
  match handle with
  | none => return suffix
  | some h =>
    match (← get).handles.find? (·.1 = h) with
    | some (_, start) => return start ++ suffix
    | none => refuse

/-- Reads an anchor, if one comes next. -/
def readAnchor : Read (Option Text) := do
  match ← peek with
  | some (.anchor name) => drop; return some name
  | _ => return none

/-- Reads a tag, if one comes next. -/
def readTag : Read (Option Text) := do
  match ← peek with
  | some (.tag handle suffix) => drop; return some (← tagName handle suffix)
  | _ => return none

/-- Reads an anchor and a tag, in either order. No two nodes have one anchor. -/
def readProperties : Read (Option Text × Option Text) := do
  let first ← readAnchor
  let tag ← readTag
  let anchor ← match first, tag with
    | none, some _ => readAnchor
    | _, _ => pure first
  match anchor with
  | none => return (none, tag)
  | some name =>
    let r ← get
    if r.anchors.contains name then refuse
    else
      set { r with anchors := name :: r.anchors }
      return (some name, tag)

/-- The tag of a scalar. A lone exclamation mark stands for the tag that the scalar has by its
form. -/
def scalarTag (tag : Option Text) (plain : Bool) (text : Text) : Tag :=
  match tag with
  | none => if plain then Tag.ofPlain text else .text
  | some name => if name = ['!'] then Tag.ofPlain text else Tag.ofName name

/-- The tag of a node that holds others. -/
def collectionTag (default : Tag) (tag : Option Text) : Tag :=
  match tag with
  | none => default
  | some name => if name = ['!'] then default else Tag.ofName name

/-! ## Nodes -/

mutual

/-- Reads a node. Blocks are read only where they may stand, and a sequence without indentation
only as the value of a key. -/
def readNode (block indentless : Bool) : Nat → Read Node
  | 0 => refuse
  | fuel + 1 => do
    match ← peek with
    | some (.alias name) =>
      drop
      if (← get).anchors.contains name then return .alias name else refuse
    | _ =>
      let (anchor, tag) ← readProperties
      match ← peek, block with
      | some (.scalar text plain), _ =>
        drop
        return .scalar anchor (scalarTag tag plain text) text
      | some .flowSequenceStart, _ =>
        drop
        return .sequence anchor (collectionTag .sequence tag) (← readFlowItems fuel true)
      | some .flowMappingStart, _ =>
        drop
        return .mapping anchor (collectionTag .mapping tag) (← readFlowEntries fuel true)
      | some .blockSequenceStart, true =>
        drop
        return .sequence anchor (collectionTag .sequence tag) (← readBlockItems fuel)
      | some .blockMappingStart, true =>
        drop
        return .mapping anchor (collectionTag .mapping tag) (← readBlockEntries fuel)
      | next, _ =>
        if indentless && next == some .blockEntry then
          return .sequence anchor (collectionTag .sequence tag) (← readIndentlessItems fuel)
        else if anchor.isSome || tag.isSome then
          return .scalar anchor (scalarTag tag true []) []
        else refuse

/-- Reads a node inside brackets, or leaves it out if one of these tokens comes next. -/
def readFlowNode (ends : List Token) : Nat → Read Node
  | 0 => refuse
  | fuel + 1 => do if ← nextIs ends then return absent else readNode false false fuel

/-- Reads the value of a key inside brackets that are closed by a token. -/
def readFlowValue (close : Token) : Nat → Read Node
  | 0 => refuse
  | fuel + 1 => do
    if ← take .value then readFlowNode [.flowEntry, close] fuel else return absent

/-- Reads the items of a sequence in brackets up to its end. An item with a key is a mapping of its
own. -/
def readFlowItems : Nat → (first : Bool) → Read (List Node)
  | 0, _ => refuse
  | fuel + 1, first => do
    if ← take .flowSequenceEnd then return []
    unless first do
      unless ← take .flowEntry do refuse
    if ← take .key then
      let key ← readFlowNode [.value, .flowEntry, .flowSequenceEnd] fuel
      let value ← readFlowValue .flowSequenceEnd fuel
      return .mapping none .mapping [(key, value)] :: (← readFlowItems fuel false)
    else if ← take .flowSequenceEnd then return []
    else
      let item ← readNode false false fuel
      return item :: (← readFlowItems fuel false)

/-- Reads the entries of a mapping in braces up to its end. -/
def readFlowEntries : Nat → (first : Bool) → Read (List (Node × Node))
  | 0, _ => refuse
  | fuel + 1, first => do
    if ← take .flowMappingEnd then return []
    unless first do
      unless ← take .flowEntry do refuse
    if ← take .key then
      let key ← readFlowNode [.value, .flowEntry, .flowMappingEnd] fuel
      let value ← readFlowValue .flowMappingEnd fuel
      return (key, value) :: (← readFlowEntries fuel false)
    else if ← take .flowMappingEnd then return []
    else
      let key ← readNode false false fuel
      return (key, absent) :: (← readFlowEntries fuel false)

/-- Reads the items of a block up to its end. -/
def readBlockItems : Nat → Read (List Node)
  | 0 => refuse
  | fuel + 1 => do
    if ← take .blockEntry then
      let item ← if ← nextIs [.blockEntry, .blockEnd] then pure absent
        else readNode true false fuel
      return item :: (← readBlockItems fuel)
    else if ← take .blockEnd then return []
    else refuse

/-- Reads the items of a sequence without indentation. -/
def readIndentlessItems : Nat → Read (List Node)
  | 0 => refuse
  | fuel + 1 => do
    if ← take .blockEntry then
      let item ← if ← nextIs [.blockEntry, .key, .value, .blockEnd] then pure absent
        else readNode true false fuel
      return item :: (← readIndentlessItems fuel)
    else return []

/-- Reads the entries of a block up to its end. -/
def readBlockEntries : Nat → Read (List (Node × Node))
  | 0 => refuse
  | fuel + 1 => do
    if ← take .key then
      let key ← readBlockPart fuel
      let value ← if ← take .value then readBlockPart fuel else pure absent
      return (key, value) :: (← readBlockEntries fuel)
    else if ← take .blockEnd then return []
    else refuse

/-- Reads a key or a value in a block, which may be left out. -/
def readBlockPart : Nat → Read Node
  | 0 => refuse
  | fuel + 1 => do
    if ← nextIs [.key, .value, .blockEnd] then return absent else readNode true true fuel

end

/-! ## Documents -/

/-- The handles that directives set: one version of the first generation at most, and each handle
once. -/
def readDirectives : Nat → (hasVersion : Bool) → List (Text × Text) → Read (List (Text × Text))
  | 0, _, _ => refuse
  | fuel + 1, hasVersion, handles => do
    match ← peek with
    | some (.directive (.version major)) =>
      if hasVersion ∨ major ≠ 1 then refuse
      else
        drop
        readDirectives fuel true handles
    | some (.directive (.tagHandle handle start)) =>
      if handles.any (·.1 = handle) then refuse
      else
        drop
        readDirectives fuel hasVersion ((handle, start) :: handles)
    | some (.directive .other) =>
      drop
      readDirectives fuel hasVersion handles
    | _ => return handles

/-- Reads the only document. An empty file has none. -/
def readDocument (fuel : Nat) : Read (Option Node) := do
  match ← peek with
  | none => return none
  | some .documentStart | some (.directive _) =>
    let handles ← readDirectives fuel false []
    unless ← take .documentStart do refuse
    modify fun r => { r with handles := handles ++ commonHandles }
    match ← peek with
    | none | some .documentStart | some .documentEnd | some (.directive _) => return some absent
    | _ => return some (← readNode true false fuel)
  | _ => return some (← readNode true false fuel)

/-- Goes on behind the marks for the end of a document. -/
def dropEnds : Nat → Read Unit
  | 0 => refuse
  | fuel + 1 => do if ← take .documentEnd then dropEnds fuel else return ()

/-- Reads a file with at most one document. -/
def readNamed (fuel : Nat) : Read (Option Node) := do
  let node ← readDocument fuel
  dropEnds fuel
  if (← peek).isSome then refuse else return node

/-- The document that tokens make up, if there is one. Every step takes a token, which bounds the
depth. -/
def ofTokens (tokens : List Token) : Except Fault (Option Node) :=
  match (readNamed (3 * tokens.length + 3)).run ⟨tokens, commonHandles, []⟩ with
  | .ok (node, _) => .ok node
  | .error f => .error f

end Node
end EnvAudit.Yaml
