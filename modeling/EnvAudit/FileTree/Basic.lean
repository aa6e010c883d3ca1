import EnvAudit.Text

/-!
# File trees

The contents of a file system as a value: files, directories, symbolic links and pipes below one
root, with the location that relative names start from. A location is the way from the root through
directories, without links. Main statements: `at?_put_self` and `at?_put_of_not_below`, which say
what is where after something was put at a location.
-/
namespace EnvAudit

/-- The way from the root to an entry, by names of real directories. -/
abbrev Location := List Text

/-- What a directory holds under a name. -/
inductive FileNode where
  | file (bytes : List UInt8)
  | dir (entries : List (Text × FileNode))
  /-- A symbolic link. -/
  | link (target : Text)
  /-- A named pipe. -/
  | pipe
deriving Repr, Inhabited

namespace FileNode

/-- The entry of a name. -/
def entryAt? (name : Text) : List (Text × FileNode) → Option FileNode
  | [] => none
  | (n, node) :: rest => if n = name then some node else entryAt? name rest

/-- Puts a node under a name, in place of what is there. -/
def setEntry (name : Text) (node : FileNode) : List (Text × FileNode) → List (Text × FileNode)
  | [] => [(name, node)]
  | (n, old) :: rest => if n = name then (n, node) :: rest else (n, old) :: setEntry name node rest

/-- Takes the entry of a name away. -/
def eraseEntry (name : Text) (entries : List (Text × FileNode)) : List (Text × FileNode) :=
  entries.filter fun e => e.1 != name

/-- The entries of a directory; nothing else has any. -/
def entries : FileNode → List (Text × FileNode)
  | .dir es => es
  | _ => []

@[simp] theorem entries_dir (es : List (Text × FileNode)) : (dir es).entries = es := rfl

/-- Whether the node is a directory, which a link is not. -/
def isDir : FileNode → Bool
  | .dir _ => true
  | _ => false

/-- What is at a location below the node. -/
def at? : Location → FileNode → Option FileNode
  | [], node => some node
  | name :: rest, node => (entryAt? name node.entries).bind (at? rest)

/-- Puts a node at a location; directories that are not there are made on the way. -/
def put (new : FileNode) : Location → FileNode → FileNode
  | [], _ => new
  | name :: rest, node =>
    .dir (setEntry name (put new rest ((entryAt? name node.entries).getD (.dir []))) node.entries)

/-- Takes what is at a location away. -/
def erase : Location → FileNode → FileNode
  | [], node => node
  | [name], node => .dir (eraseEntry name node.entries)
  | name :: rest, node =>
    match entryAt? name node.entries with
    | some child => .dir (setEntry name (erase rest child) node.entries)
    | none => node

/-! ## What is where after a change -/

@[simp] theorem entryAt?_setEntry_self (name : Text) (node : FileNode)
    (es : List (Text × FileNode)) : entryAt? name (setEntry name node es) = some node := by
  induction es with
  | nil => simp [setEntry, entryAt?]
  | cons e es ih =>
    obtain ⟨n, old⟩ := e
    by_cases h : n = name <;> simp [setEntry, entryAt?, h, ih]

theorem entryAt?_setEntry_of_ne {name other : Text} (h : other ≠ name) (node : FileNode)
    (es : List (Text × FileNode)) : entryAt? other (setEntry name node es) = entryAt? other es := by
  induction es with
  | nil => simp [setEntry, entryAt?, Ne.symm h]
  | cons e es ih =>
    obtain ⟨n, old⟩ := e
    by_cases hn : n = name
    · subst hn
      simp [setEntry, entryAt?, Ne.symm h]
    · simp only [setEntry, hn, if_false, entryAt?, ih]

theorem at?_put_self (new : FileNode) (loc : Location) (node : FileNode) :
    (put new loc node).at? loc = some new := by
  induction loc generalizing node with
  | nil => rfl
  | cons name rest ih => simp [put, at?, ih]

@[simp] theorem setEntry_setEntry (name : Text) (old new : FileNode)
    (es : List (Text × FileNode)) :
    setEntry name new (setEntry name old es) = setEntry name new es := by
  induction es with
  | nil => simp [setEntry]
  | cons e es ih =>
    obtain ⟨n, m⟩ := e
    by_cases h : n = name <;> simp [setEntry, h, ih]

/-- What is put last at a location is what counts. -/
theorem put_put (old new : FileNode) (loc : Location) (node : FileNode) :
    put new loc (put old loc node) = put new loc node := by
  induction loc generalizing node with
  | nil => rfl
  | cons name rest ih => simp [put, ih]

/-- What is not at or below a location, nor on the way to it, stays as it was. -/
theorem at?_put_of_not_below {loc other : Location} (below : ¬ loc <+: other)
    (above : ¬ other <+: loc) (new node : FileNode) :
    (put new loc node).at? other = node.at? other := by
  induction loc generalizing other node with
  | nil => exact absurd (List.nil_prefix) below
  | cons name rest ih =>
    cases other with
    | nil => exact absurd (List.nil_prefix) above
    | cons name' rest' =>
      by_cases h : name' = name
      · subst h
        simp only [put, at?, entries_dir, entryAt?_setEntry_self, Option.bind_some]
        have below' : ¬ rest <+: rest' := fun p => below (List.cons_prefix_cons.mpr ⟨rfl, p⟩)
        have above' : ¬ rest' <+: rest := fun p => above (List.cons_prefix_cons.mpr ⟨rfl, p⟩)
        rw [ih below' above']
        cases entryAt? name' node.entries with
        | some child => rfl
        | none =>
          cases rest' with
          | nil => exact absurd (List.nil_prefix) above'
          | cons n r => rfl
      · simp [put, at?, entryAt?_setEntry_of_ne h]

end FileNode

/-- A repository of version control: the location of its top directory, and the files in its
index, by their paths below it. -/
structure Repository where
  top : Location
  index : List Text
  /-- Whether it is kept elsewhere, as what stands at the top says. -/
  linked : Bool := false
deriving DecidableEq, Repr

/-- A file system, with the location where relative names start. -/
structure FileTree where
  root : FileNode
  here : Location
  repositories : List Repository := []
deriving Repr, Inhabited

namespace FileTree

/-- What is at a location. -/
def at? (t : FileTree) (loc : Location) : Option FileNode := t.root.at? loc

/-- Puts a node at a location. -/
def put (t : FileTree) (loc : Location) (node : FileNode) : FileTree :=
  { t with root := FileNode.put node loc t.root }

theorem put_put (t : FileTree) (loc : Location) (old new : FileNode) :
    (t.put loc old).put loc new = t.put loc new := by
  simp [put, FileNode.put_put]

/-- Takes what is at a location away. -/
def erase (t : FileTree) (loc : Location) : FileTree := { t with root := FileNode.erase loc t.root }

end FileTree
end EnvAudit
