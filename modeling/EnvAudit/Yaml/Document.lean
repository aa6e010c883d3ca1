import EnvAudit.Yaml.Node
import EnvAudit.Yaml.Scalar
import EnvAudit.Yaml.Token.Lexer

/-!
# Data of a document

Each node stands for a piece of data; an alias stands for the data of the node under its anchor.
Within a mapping a later entry of a key replaces an earlier one, and entries of other mappings can
be merged before its own. Of several faults the least deep in the document is reported, the first of
those.
-/
namespace EnvAudit.Yaml

/-- A fault, and how deep in the document it lies. -/
structure DeepFault where
  depth : Nat
  fault : Fault
deriving DecidableEq, Repr

/-- A piece of data, or why there is none. -/
abbrev Outcome (α : Type) := Except DeepFault α

/-- Two results together. Of two faults the less deep one counts, else the first. -/
def both {α β γ : Type} (make : α → β → γ) : Outcome α → Outcome β → Outcome γ
  | .ok a, .ok b => .ok (make a b)
  | .error e, .ok _ => .error e
  | .ok _, .error e => .error e
  | .error e, .error e' => .error (if e'.depth < e.depth then e' else e)

/-- A result at a depth. -/
def atDepth {α : Type} (depth : Nat) : Except Fault α → Outcome α
  | .ok a => .ok a
  | .error f => .error ⟨depth, f⟩

namespace Node

/-! ## Nodes under anchors -/

/-- The node itself, if it has an anchor, by its name. -/
def named (anchor : Option Text) (node : Node) : List (Text × Node) :=
  match anchor with
  | some name => [(name, node)]
  | none => []

mutual

/-- The nodes with anchors at or below a node. -/
def anchored : Node → List (Text × Node)
  | .scalar a tag t => named a (.scalar a tag t)
  | .sequence a tag items => named a (.sequence a tag items) ++ anchoredItems items
  | .mapping a tag entries => named a (.mapping a tag entries) ++ anchoredEntries entries
  | .alias _ => []

/-- The nodes with anchors among items. -/
def anchoredItems : List Node → List (Text × Node)
  | [] => []
  | n :: rest => anchored n ++ anchoredItems rest

/-- The nodes with anchors among entries. -/
def anchoredEntries : List (Node × Node) → List (Text × Node)
  | [] => []
  | (k, v) :: rest => anchored k ++ anchored v ++ anchoredEntries rest

end

mutual

/-- The number of nodes at or below a node. -/
def size : Node → Nat
  | .scalar .. | .alias _ => 1
  | .sequence _ _ items => sizeItems items + 1
  | .mapping _ _ entries => sizeEntries entries + 1

/-- The number of nodes among items. -/
def sizeItems : List Node → Nat
  | [] => 0
  | n :: rest => size n + sizeItems rest

/-- The number of nodes among entries. -/
def sizeEntries : List (Node × Node) → Nat
  | [] => 0
  | (k, v) :: rest => size k + size v + sizeEntries rest

end

/-- The node that an alias stands for; other nodes stand for themselves. -/
def target (table : List (Text × Node)) : Node → Node
  | .alias name =>
    match table.find? (·.1 = name) with
    | some (_, node) => node
    | none => .alias name
  | node => node

/-- Whether a node is a scalar with a tag. -/
def isScalarWith (tag : Tag) : Node → Bool
  | .scalar _ t _ => t == tag
  | _ => false

/-! ## Merging -/

/-- The entries of a mapping with those that it merges before its own. Of several mappings that
are merged the earlier counts more, so it comes later. Only mappings can be merged. -/
def mergedEntries (table : List (Text × Node)) :
    Nat → List (Node × Node) → Option (List (Node × Node))
  | 0, _ => some []
  | fuel + 1, entries => do
    let isMerge := fun (e : Node × Node) => (target table e.1).isScalarWith .merge
    let sources ← (entries.filter isMerge).mapM fun e =>
      match target table e.2 with
      | .mapping _ _ inner => mergedEntries table fuel inner
      | .sequence _ _ items => do
        let parts ← items.mapM fun item =>
          match target table item with
          | .mapping _ _ inner => mergedEntries table fuel inner
          | _ => none
        return parts.reverse.flatten
      | _ => none
    let own := (entries.filter fun e => !isMerge e).map fun e =>
      match target table e.1 with
      | .scalar a .value t => (.scalar a .text t, e.2)
      | _ => e
    return sources.flatten ++ own

/-- The text of a scalar, or of the value of a mapping that stands for one. -/
def scalarText? (table : List (Text × Node)) : Nat → Node → Option Text
  | 0, _ => none
  | fuel + 1, node =>
    match target table node with
    | .scalar _ _ t => some t
    | .mapping _ _ entries =>
      match entries.find? fun e => (target table e.1).isScalarWith .value with
      | some (_, v) => scalarText? table fuel v
      | none => none
    | _ => none

/-! ## Data -/

/-- Whether a tag stands for data that holds other data. -/
def isCollectionTag : Tag → Bool
  | .sequence | .mapping | .set | .orderedMapping | .pairs => true
  | _ => false

/-- Whether a node stands for data that holds other data, which is no key. -/
def isCollection (table : List (Text × Node)) (node : Node) : Bool :=
  match target table node with
  | .scalar _ tag _ | .sequence _ tag _ | .mapping _ tag _ => isCollectionTag tag
  | .alias _ => false

/-- What an alias inside of its own node stands for. -/
def inner (table : List (Text × Node)) (name : Text) : Data :=
  match target table (.alias name) with
  | .sequence .. => .list []
  | _ => .map []

/-- The data of nodes with anchors so far, by anchor. -/
abbrev Known := List (Text × Data)

/-- Remembers the data of a node with an anchor. -/
def remember (anchor : Option Text) (outcome : Outcome Data) : StateM Known (Outcome Data) := do
  match anchor, outcome with
  | some name, .ok d => modify ((name, d) :: ·)
  | _, _ => pure ()
  return outcome

/-- The mapping of a list of entries, as far as all keys can be keys. -/
def mappingOf (outcome : Outcome (List (Data × Data))) : Outcome Data := outcome.map Data.ofEntries

/-- The set of the keys of a list of entries. -/
def setOf (outcome : Outcome (List (Data × Data))) : Outcome Data :=
  outcome.map fun entries => .set (Data.distinct (entries.map (·.1)))

/-- What is built of each of several parts, in order. -/
def collect {α β : Type} (build : α → StateM Known (Outcome β)) :
    List α → StateM Known (Outcome (List β))
  | [] => return .ok []
  | a :: rest => do
    let b ← build a
    return both List.cons b (← collect build rest)

/-- The data of an entry, given how to find that of a node. Data that holds other data is no
key. -/
def entryOf (table : List (Text × Node)) (depth : Nat)
    (build : Node → StateM Known (Outcome Data)) (entry : Node × Node) :
    StateM Known (Outcome (Data × Data)) := do
  let key ← if isCollection table entry.1 then pure (.error ⟨depth, .malformed⟩)
    else build entry.1
  return both Prod.mk key (← build entry.2)

/-- The data of an item that is a mapping of one entry, as a pair. -/
def pairOf (table : List (Text × Node)) (depth : Nat)
    (build : Node → StateM Known (Outcome Data)) (item : Node) : StateM Known (Outcome Data) := do
  match target table item with
  | .mapping _ _ [(k, v)] =>
    let key ← build k
    return both Data.pair key (← build v)
  | _ => return .error ⟨depth, .malformed⟩

/-- The anchors around what is inside a node. -/
def openedBy (anchor : Option Text) (opened : List Text) : List Text :=
  match anchor with
  | some name => name :: opened
  | none => opened

/-- The data of a node at a depth, inside of the nodes with the anchors `opened`. The number of
steps down is bounded, for a node may lie within itself by way of an alias. -/
def valueOf (table : List (Text × Node)) :
    (fuel : Nat) → (opened : List Text) → (depth : Nat) → Node → StateM Known (Outcome Data)
  | 0, _, _, _ => return .ok (.map [])
  | fuel + 1, opened, depth, node =>
    let inside := depth + 1
    match node with
    | .alias name => do
      match (← get).find? (·.1 = name) with
      | some (_, d) => return .ok d
      | none =>
        if opened.contains name then return .ok (inner table name)
        else valueOf table fuel opened depth (target table (.alias name))
    | .scalar anchor tag t =>
      remember anchor (atDepth (if isCollectionTag tag then inside else depth)
        (scalarValue tag t))
    | .sequence anchor tag items => do
      let build := valueOf table fuel (openedBy anchor opened) inside
      match tag with
      | .sequence => remember anchor ((← collect build items).map Data.list)
      | .orderedMapping | .pairs =>
        remember anchor ((← collect (pairOf table inside build) items).map Data.list)
      | .mapping | .set => return .error ⟨inside, .malformed⟩
      | _ => return .error ⟨depth, .malformed⟩
    | .mapping anchor tag entries => do
      let build := valueOf table fuel (openedBy anchor opened) inside
      match tag with
      | .mapping | .set =>
        match mergedEntries table (fuel + 1) entries with
        | none => return .error ⟨inside, .malformed⟩
        | some all =>
          let pairs ← collect (entryOf table inside build) all
          remember anchor (if tag = .set then setOf pairs else mappingOf pairs)
      | .sequence | .orderedMapping | .pairs => return .error ⟨inside, .malformed⟩
      | _ =>
        match scalarText? table (fuel + 1) (.mapping anchor tag entries) with
        | some t => remember anchor (atDepth depth (scalarValue tag t))
        | none => return .error ⟨depth, .malformed⟩

/-- The data of a whole document. -/
def data (node : Node) : Except Fault Data :=
  match (valueOf node.anchored (2 * node.size + 2) [] 0 node).run [] with
  | (.ok d, _) => .ok d
  | (.error e, _) => .error e.fault

end Node

/-- Whether a document may hold a character. -/
def isPrintable (c : Char) : Bool :=
  let n := c.toNat
  n == 9 || n == 10 || n == 13 || (0x20 ≤ n && n ≤ 0x7E) || n == 0x85 ||
    (0xA0 ≤ n && n ≤ 0xD7FF) || (0xE000 ≤ n && n ≤ 0xFFFD) || 0x10000 ≤ n

/-- The data of a document whose lines end in line feeds; an empty one stands for nothing. -/
def read (t : Text) : Except Fault Data :=
  if t.all isPrintable then do
    match ← Node.ofTokens (Token.scan t) with
    | some node => node.data
    | none => return .null
  else .error .malformed

end EnvAudit.Yaml
