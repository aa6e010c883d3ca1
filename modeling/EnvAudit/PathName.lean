import EnvAudit.Text

/-!
# Path names

A path name is the list of its parts with a mark for where it starts: here, at the root, or at the
second root that two leading slashes name. Empty parts and dots are dropped when a name is read, and
`..` is kept, for what it means depends on the file system.
`below?_descend` says that a name built below a directory lies below it.
-/
namespace EnvAudit

/-- Where a path name starts. -/
inductive Anchorage where
  | here
  | root
  /-- Exactly two leading slashes, which stay apart from one. -/
  | doubleRoot
deriving DecidableEq, Repr

/-- The slashes that a path name starts with. -/
def Anchorage.text : Anchorage → Text
  | .here => []
  | .root => ['/']
  | .doubleRoot => ['/', '/']

/-- A path name. -/
structure PathName where
  anchorage : Anchorage
  parts : List Text
deriving DecidableEq, Repr

namespace PathName

/-- Whether a piece between slashes is a part of the name: an empty one and a dot are not. -/
def isPart (piece : Text) : Bool := piece != [] && piece != ['.']

/-- Where a written name starts. -/
def anchorageOf : Text → Anchorage
  | '/' :: '/' :: '/' :: _ => .root
  | '/' :: '/' :: _ => .doubleRoot
  | '/' :: _ => .root
  | _ => .here

/-- The path name that a text writes. -/
def ofText (t : Text) : PathName := ⟨anchorageOf t, (Text.splitOn '/' t).filter isPart⟩

/-- The written form of a path name; the empty name is a dot. -/
def toText (p : PathName) : Text :=
  match p.anchorage, p.parts with
  | .here, [] => ['.']
  | a, parts => a.text ++ Text.join ['/'] parts

/-- The name of an entry of the directory with this name. -/
def child (p : PathName) (name : Text) : PathName := { p with parts := p.parts ++ [name] }

/-- The name of something below the directory with this name. -/
def descend (p : PathName) (names : List Text) : PathName := { p with parts := p.parts ++ names }

/-- The name without its last part. -/
def parent (p : PathName) : PathName := { p with parts := p.parts.dropLast }

/-- The last part; the empty text if there is none. -/
def name (p : PathName) : Text := p.parts.getLast?.getD []

/-- The parts of `p` below `base`, if `p` starts with `base`. -/
def below? (p base : PathName) : Option (List Text) :=
  if p.anchorage = base.anchorage && base.parts.isPrefixOf p.parts then
    some (p.parts.drop base.parts.length)
  else none

/-- A path as it is shown beside others: relative to the base if it lies below it by name, else
as it is. -/
def display (p base : PathName) : Text :=
  match p.below? base with
  | some parts => (PathName.mk .here parts).toText
  | none => p.toText

/-- The ending of a file name from its last dot on. There is none if the last dot is the first or
the last character. -/
def suffix (name : Text) : Text :=
  let ending := (name.reverse.takeWhile (· != '.')).reverse
  if ending.length + 1 < name.length && !ending.isEmpty then '.' :: ending else []

/-! ## Names below a directory -/

@[simp] theorem below?_descend (p : PathName) (names : List Text) :
    (p.descend names).below? p = some names := by
  simp [below?, descend]

theorem name_child (p : PathName) (name : Text) : (p.child name).name = name := by
  simp [child, PathName.name]

end PathName
end EnvAudit
