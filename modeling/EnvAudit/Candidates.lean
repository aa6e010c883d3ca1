import EnvAudit.FileTree.Lookup
import EnvAudit.Glob.Baseline
import EnvAudit.Glob.Exclude

/-!
# Candidate files

The files below a root that a scan looks at. A walk goes through real directories only, leaves out
what the exclusions name, and gives the files of a directory, by name, before those of the
directories in it. Pruning a directory looks at its own path alone.

`mem_candidatesIn_dir` says which paths a directory contributes, file by file and directory by
directory.
-/
namespace EnvAudit

/-- A path below the root of a walk, by its parts. -/
abbrev RelPath := List Text

namespace FileTree

/-- Whether an entry of a directory counts as a directory: a link to one does. -/
def countsAsDir (t : FileTree) (loc : Location) (name : Text) : FileNode → Bool
  | .dir _ => true
  | .link _ => t.leadsToDir loc name
  | .file _ | .pipe => false

/-- Whether an entry of a directory survives the exclusions. `rel` is the path of the directory. -/
def survives (t : FileTree) (globs : List Text) (loc : Location) (rel : RelPath)
    (name : Text) (node : FileNode) : Bool :=
  if t.countsAsDir loc name node then
    !Glob.isSkippedDir name && !Glob.excludesParts globs (rel ++ [name]) true
  else !Glob.isBaselineExcluded name && !Glob.excludesParts globs (rel ++ [name]) false

/-- Whether an entry of a directory is a file to look at. -/
def isCandidate (t : FileTree) (globs : List Text) (loc : Location) (rel : RelPath)
    (name : Text) (node : FileNode) : Bool :=
  !t.countsAsDir loc name node && t.survives globs loc rel name node

/-- Named things in the order of their names, by code point. -/
def byName {α : Type} (named : List (Text × α)) : List (Text × α) :=
  named.mergeSort fun a b => Text.le a.1 b.1

/-- The paths of the files to look at among the entries of a directory. -/
def filesIn (t : FileTree) (globs : List Text) (loc : Location) (rel : RelPath)
    (entries : List (Text × FileNode)) : List RelPath :=
  (byName (entries.filter fun e => t.isCandidate globs loc rel e.1 e.2)).map fun e => rel ++ [e.1]

mutual

/-- The paths of the files to look at below a node. Only a directory has any. -/
def candidatesIn (t : FileTree) (globs : List Text) (loc : Location) (rel : RelPath) :
    FileNode → List RelPath
  | .dir entries =>
    t.filesIn globs loc rel entries ++
      (byName (t.candidatesByDir globs loc rel entries)).flatMap (·.2)
  | .file _ | .link _ | .pipe => []

/-- The directories among the entries that survive, each with the paths of its candidates. -/
def candidatesByDir (t : FileTree) (globs : List Text) (loc : Location) (rel : RelPath) :
    List (Text × FileNode) → List (Text × List RelPath)
  | [] => []
  | (name, node) :: rest =>
    let others := t.candidatesByDir globs loc rel rest
    if node.isDir && t.survives globs loc rel name node then
      (name, t.candidatesIn globs (loc ++ [name]) (rel ++ [name]) node) :: others
    else others

end

/-- The paths of the files to look at below a root. There are none if the root is no directory;
only a name that nothing can have is a failure. -/
def candidates (t : FileTree) (root : PathName) (globs : List Text) :
    Except PathProblem (List RelPath) :=
  match t.find? root with
  | .ok (some (loc, node)) => .ok (t.candidatesIn globs loc [] node)
  | .ok none => .ok []
  | .error .embeddedNull => .error .embeddedNull
  | .error _ => .ok []

/-- Whether any entry at the top of a walk survives the exclusions. -/
def anySurvives (t : FileTree) (root : PathName) (globs : List Text) : Bool :=
  match t.find? root with
  | .ok (some (loc, node)) => node.entries.any fun e => t.survives globs loc [] e.1 e.2
  | _ => false

/-! ## What a directory contributes -/

theorem mem_candidatesByDir (t : FileTree) (globs : List Text) (loc : Location) (rel : RelPath)
    (entries : List (Text × FileNode)) (name : Text) (paths : List RelPath) :
    (name, paths) ∈ t.candidatesByDir globs loc rel entries ↔
      ∃ node, (name, node) ∈ entries ∧ node.isDir = true ∧
        t.survives globs loc rel name node = true ∧
        paths = t.candidatesIn globs (loc ++ [name]) (rel ++ [name]) node := by
  induction entries with
  | nil => simp [candidatesByDir]
  | cons e rest ih =>
    obtain ⟨n, node⟩ := e
    simp only [candidatesByDir]
    split
    · rename_i h
      simp only [Bool.and_eq_true] at h
      simp only [List.mem_cons, Prod.mk.injEq, ih]
      constructor
      · rintro (⟨rfl, rfl⟩ | ⟨m, hm, hd, hs, hp⟩)
        · exact ⟨node, .inl ⟨rfl, rfl⟩, h.1, h.2, rfl⟩
        · exact ⟨m, .inr hm, hd, hs, hp⟩
      · rintro ⟨m, ⟨rfl, rfl⟩ | hm, hd, hs, hp⟩
        · exact .inl ⟨rfl, hp⟩
        · exact .inr ⟨m, hm, hd, hs, hp⟩
    · rename_i h
      simp only [Bool.and_eq_true] at h
      simp only [List.mem_cons, Prod.mk.injEq, ih]
      constructor
      · rintro ⟨m, hm, hd, hs, hp⟩
        exact ⟨m, .inr hm, hd, hs, hp⟩
      · rintro ⟨m, ⟨rfl, rfl⟩ | hm, hd, hs, hp⟩
        · exact absurd ⟨hd, hs⟩ h
        · exact ⟨m, hm, hd, hs, hp⟩

theorem mem_byName {α : Type} (xs : List (Text × α)) (x : Text × α) : x ∈ byName xs ↔ x ∈ xs :=
  List.mem_mergeSort

/-- A path comes from a directory if it is that of a candidate in it, or comes from one of the
surviving directories in it. -/
theorem mem_candidatesIn_dir (t : FileTree) (globs : List Text) (loc : Location) (rel : RelPath)
    (entries : List (Text × FileNode)) (path : RelPath) :
    path ∈ t.candidatesIn globs loc rel (.dir entries) ↔
      (∃ name node, (name, node) ∈ entries ∧ t.isCandidate globs loc rel name node = true ∧
        path = rel ++ [name]) ∨
      ∃ name node, (name, node) ∈ entries ∧ node.isDir = true ∧
        t.survives globs loc rel name node = true ∧
        path ∈ t.candidatesIn globs (loc ++ [name]) (rel ++ [name]) node := by
  simp only [candidatesIn, filesIn, List.mem_append, List.mem_map, mem_byName, List.mem_filter,
    List.mem_flatMap, Prod.exists, mem_candidatesByDir]
  constructor
  · rintro (⟨name, node, ⟨hm, hc⟩, rfl⟩ | ⟨name, paths, ⟨node, hm, hd, hs, rfl⟩, hp⟩)
    · exact .inl ⟨name, node, hm, hc, rfl⟩
    · exact .inr ⟨name, node, hm, hd, hs, hp⟩
  · rintro (⟨name, node, hm, hc, rfl⟩ | ⟨name, node, hm, hd, hs, hp⟩)
    · exact .inl ⟨name, node, ⟨hm, hc⟩, rfl⟩
    · exact .inr ⟨name, _, ⟨node, hm, hd, hs, rfl⟩, hp⟩

end FileTree
end EnvAudit
