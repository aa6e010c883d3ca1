import EnvAudit.FileTree.RealPath
import EnvAudit.Git.Listing
import EnvAudit.Git.Program

/-!
# Repositories

Which repository a directory belongs to, and what version control answers for the repositories of a
tree (`program`). A repository is found from the nearest directory above that holds one, or that has a
file which says where it is kept. A question is asked in a directory; where that directory does not
exist, it is asked at the start of relative names.
-/
namespace EnvAudit.Git

/-- The name of the directory in which version control keeps a repository. -/
def gitDir : Text := ".git".toList

/-- The absolute form of a path name with dots resolved by name only. -/
def absolute (t : FileTree) (p : PathName) : PathName :=
  ⟨.root, FileTree.normalise (t.startOf p ++ p.parts)⟩

/-- The directory in which a question about a path name is asked. -/
def workingDir (t : FileTree) (p : PathName) : Location :=
  match t.find? (absolute t p) with
  | .ok (some (loc, .dir _)) => loc
  | _ => t.here

/-- What a directory itself says about its repository. Where a file stands in place of the directory of
a repository, it says where the repository is kept; if it does not, there is none. -/
def repositoryAt? (t : FileTree) (loc : Location) : Option (Option Repository) :=
  let linked := t.repositories.find? fun r => r.top = loc && r.linked
  match t.at? (loc ++ [gitDir]) with
  | some (.dir _) => (t.repositories.find? (·.top = loc)).map some
  | some (.file _) => some linked
  | some (.link _) => linked.map some
  | _ => none

/-- The repository of a directory; the number of levels to go up bounds the search. -/
def repositoryFrom (t : FileTree) : Nat → Location → Option Repository
  | 0, loc => (repositoryAt? t loc).getD none
  | levels + 1, loc => (repositoryAt? t loc).getD (repositoryFrom t levels loc.dropLast)

/-- The repository that a directory belongs to. -/
def repositoryOf? (t : FileTree) (loc : Location) : Option Repository :=
  repositoryFrom t loc.length loc

/-- The parts of an absolute path below the top of a repository, behind links above it. -/
def belowTop? (t : FileTree) (top : Location) (parts : List Text) : Option (List Text) :=
  (List.range (parts.length + 1)).findSome? fun n =>
    if (t.realPath ⟨.root, parts.take n⟩).parts = top then some (parts.drop n) else none

/-- Whether a directory is inside the one in which version control keeps a repository. -/
def isInside (r : Repository) (dir : Location) : Bool := (r.top ++ [gitDir]).isPrefixOf dir

/-- The directory below the top from which paths are taken that are asked about in a directory. Inside
the directory of the repository there is no work tree, and they are taken from the top. -/
def baseOf (r : Repository) (dir : Location) : List Text :=
  if isInside r dir then [] else dir.drop r.top.length

/-- The pathspec for a path that is asked about in a directory of a repository. Behind its magic it is
read from the top, from the directory or from the root. -/
def pathspecIn? (t : FileTree) (r : Repository) (dir : Location) (path : Text) : Option Pathspec := do
  let (magic, path) ← Magic.ofText? path
  let p := PathName.ofText path
  if magic.top then return Pathspec.ofTop magic path
  else
    match p.anchorage with
    | .here => Pathspec.ofText? (baseOf r dir) magic path
    | .root | .doubleRoot =>
      if isInside r dir then none
      else
        (belowTop? t r.top (FileTree.normalise p.parts)).map fun rest =>
          ⟨[], rest, path.getLast? = some '/', magic⟩

/-- The names in the index that a path brings up, which is asked about in a directory of a
repository. -/
def namesFor (t : FileTree) (r : Repository) (dir : Location) (path : Text) : List Text :=
  match pathspecIn? t r dir path with
  | some spec => r.index.filter (spec.selects (baseOf r dir))
  | none => []

/-- What is printed for a path that is asked about in a directory: the names that it brings up. -/
def listingIn (t : FileTree) (dir : Location) (path : Text) : Reply :=
  match repositoryOf? t dir with
  | none => .failed
  | some r =>
    let names := namesFor t r dir path
    if names.isEmpty then .failed
    else .printed (Text.join ['\n'] (names.map (shownName (baseOf r dir))))

/-! ## Version control over a tree -/

/-- Version control over the repositories of a tree, if it is installed. -/
def program (t : FileTree) (installed : Bool) : Program where
  inRepository p := installed && (repositoryOf? t (workingDir t p)).isSome
  listing root path := if installed then listingIn t (workingDir t root) path else .failed

/-- Whether a path name leads into a repository, as far as version control is installed. -/
def isRepository (t : FileTree) (installed : Bool) (p : PathName) : Except PathProblem Bool :=
  (program t installed).isRepository p

/-- Whether version control knows a path, which is asked about in the directory that a path name
leads to. Without version control it does not. -/
def isTracked (t : FileTree) (installed : Bool) (root : PathName) (path : Text) :
    Except PathProblem Bool :=
  (program t installed).isTracked root path

/-! ## Changing repositories -/

/-- Makes a directory the top of a repository. One that is a repository already stays as it is. -/
def makeRepository (t : FileTree) (loc : Location) : FileTree :=
  match repositoryAt? t loc with
  | some _ => t
  | none =>
    { t.put (loc ++ [gitDir]) (.dir []) with
      repositories := { top := loc, index := [] } :: t.repositories.filter (·.top != loc) }

mutual

/-- The paths of all files at or below a node, which is at `path`. -/
def filesBelow (path : List Text) : FileNode → List (List Text)
  | .dir entries => filesAmong path entries
  | .file _ | .link _ | .pipe => [path]

/-- The paths of all files at or below the entries of the directory at `path`. -/
def filesAmong (path : List Text) : List (Text × FileNode) → List (List Text)
  | [] => []
  | (name, node) :: rest =>
    (if name = gitDir then [] else filesBelow (path ++ [name]) node) ++ filesAmong path rest

end

/-- Adds a file, or all files of a directory, to the index of the repository that a directory
belongs to. -/
def stage (t : FileTree) (dir : Location) (path : Text) : FileTree :=
  match repositoryOf? t dir with
  | none => t
  | some r =>
    match pathspecIn? t r dir path with
    | none => t
    | some spec =>
      let parts := spec.fixed ++ spec.rest
      let found := match t.at? (r.top ++ parts) with
        | some node => (filesBelow parts node).map (Text.join ['/'])
        | none => []
      let index := r.index ++ found.filter fun name => !r.index.contains name
      { t with repositories := t.repositories.map fun q =>
          if q.top = r.top then { q with index := index } else q }

end EnvAudit.Git
