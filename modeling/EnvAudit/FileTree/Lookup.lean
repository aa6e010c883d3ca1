import EnvAudit.FileTree.Basic
import EnvAudit.PathName
import EnvAudit.Text.Utf8

/-!
# Looking up path names

A path name is followed part by part. A link on the way is replaced by what it points to, at most
forty times; a link in last place is followed or not, as asked. The result is what was found, or
the directory where a new entry could be made, or the reason why neither is there.
-/
namespace EnvAudit

/-- Why a path name leads nowhere. -/
inductive PathProblem where
  | notFound
  | notDirectory
  | tooManyLinks
  | nameTooLong
  | embeddedNull
deriving DecidableEq, Repr

/-- Where a path name leads. -/
inductive Target where
  /-- To what is at a location. -/
  | found (loc : Location) (node : FileNode)
  /-- To nothing, in a directory that is there. -/
  | vacant (dir : Location) (name : Text)
deriving Repr

/-- How far the parts of a path name lead without following a link. -/
inductive Stop where
  | done (target : Target)
  | problem (p : PathProblem)
  /-- At a link, in a directory, with the parts behind it. -/
  | atLink (dir : Location) (target : Text) (rest : List Text)

/-- The most links that are followed on one way. -/
def maxLinks : Nat := 40

/-- The most bytes of a name. -/
def maxNameBytes : Nat := 255

/-- Whether a name is longer than a directory can hold. -/
def isNameTooLong (name : Text) : Bool := maxNameBytes < (Utf8.encode name).length

/-- The most bytes of a path name that is handed to the system. -/
def maxPathBytes : Nat := 4095

/-- Whether a path name is longer than can be handed to the system. -/
def PathName.isTooLong (p : PathName) : Bool := maxPathBytes < (Utf8.encode p.toText).length

namespace FileTree

/-- Follows parts from a directory on, up to the end or a link. An empty part and a dot stay where
they are. -/
def descend (t : FileTree) (followLast : Bool) : Location → List Text → Stop
  | loc, [] =>
    match t.at? loc with
    | some node => .done (.found loc node)
    | none => .problem .notFound
  | loc, part :: rest =>
    if part = [] ∨ part = ['.'] then t.descend followLast loc rest
    else if part = ['.', '.'] then t.descend followLast loc.dropLast rest
    else if isNameTooLong part then .problem .nameTooLong
    else
      match t.at? (loc ++ [part]) with
      | none => if rest.isEmpty then .done (.vacant loc part) else .problem .notFound
      | some (.dir _) => t.descend followLast (loc ++ [part]) rest
      | some (.link target) =>
        if rest.isEmpty && !followLast then .done (.found (loc ++ [part]) (.link target))
        else .atLink loc target rest
      | some node =>
        if rest.isEmpty then .done (.found (loc ++ [part]) node) else .problem .notDirectory

/-- Follows parts from a directory on, with so many links to spare. -/
def follow (t : FileTree) (followLast : Bool) :
    Nat → Location → List Text → Except PathProblem Target
  | links, loc, parts =>
    match t.descend followLast loc parts with
    | .done target => .ok target
    | .problem p => .error p
    | .atLink dir target rest =>
      match links with
      | 0 => .error .tooManyLinks
      | n + 1 =>
        let start := if target.head? = some '/' then [] else dir
        t.follow followLast n start (Text.splitOn '/' target ++ rest)

/-- The location where a path name starts. -/
def startOf (t : FileTree) (p : PathName) : Location :=
  match p.anchorage with
  | .here => t.here
  | .root | .doubleRoot => []

/-- Where a path name leads; a link in last place is followed if asked. -/
def lookup (t : FileTree) (p : PathName) (followLast : Bool) : Except PathProblem Target :=
  if p.parts.any (·.contains '\x00') then .error .embeddedNull
  else t.follow followLast maxLinks (t.startOf p) p.parts

/-- What a path name leads to, behind all links. -/
def find? (t : FileTree) (p : PathName) : Except PathProblem (Option (Location × FileNode)) :=
  match t.lookup p true with
  | .ok (.found loc node) => .ok (some (loc, node))
  | .ok (.vacant ..) => .ok none
  | .error e => .error e

/-- Whether a problem only says that there is nothing, which is an answer to the question whether
there is something. -/
def PathProblem.meansAbsent : PathProblem → Bool
  | .nameTooLong => false
  | _ => true

/-- Whether what a path name leads to has a property; it has none if nothing is there. A name that
is too long is no answer. -/
def isThere (t : FileTree) (p : PathName) (property : FileNode → Bool) :
    Except PathProblem Bool :=
  match t.find? p with
  | .ok (some (_, node)) => .ok (property node)
  | .ok none => .ok false
  | .error e => if PathProblem.meansAbsent e then .ok false else .error e

/-- Whether something is there. -/
def exists? (t : FileTree) (p : PathName) : Except PathProblem Bool := t.isThere p fun _ => true

/-- Whether a directory is there. -/
def isDir? (t : FileTree) (p : PathName) : Except PathProblem Bool := t.isThere p (·.isDir)

/-- Whether a regular file is there. -/
def isFile? (t : FileTree) (p : PathName) : Except PathProblem Bool :=
  t.isThere p fun
    | .file _ => true
    | _ => false

/-- Whether a regular file is there, asked with the whole name. One that is too long is no answer,
unless no file can have it for a null character. -/
def isFileAsked? (t : FileTree) (p : PathName) : Except PathProblem Bool :=
  if p.isTooLong && !p.parts.any (·.contains '\x00') then .error .nameTooLong else t.isFile? p

theorem find?_of_isFile? {t : FileTree} {p : PathName} (h : t.isFile? p = .ok true) :
    ∃ loc bytes, t.find? p = .ok (some (loc, .file bytes)) := by
  rw [isFile?, isThere] at h
  split at h
  · rename_i loc node hf
    cases node with
    | file bytes => exact ⟨loc, bytes, hf⟩
    | _ => simp at h
  · cases h
  · split at h <;> cases h

/-- Whether a path below a real directory leads to a directory, behind all links. -/
def leadsToDir (t : FileTree) (dir : Location) (name : Text) : Bool :=
  match t.follow true maxLinks dir [name] with
  | .ok (.found _ (.dir _)) => true
  | _ => false

end FileTree
end EnvAudit
