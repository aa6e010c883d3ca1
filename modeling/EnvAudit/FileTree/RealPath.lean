import EnvAudit.FileTree.Lookup

/-!
# Real paths

The absolute path behind a path name, with every link on the way replaced. Unlike a look-up it gives
an answer also for what is not there: parts below something absent stay as they are. A link that
leads back to itself cannot be replaced; the path then keeps it, and whoever looks it up fails.
-/
namespace EnvAudit

/-- A path while its links are replaced: the location so far, and whether everything was
replaced. -/
structure RealPath where
  loc : Location
  complete : Bool
deriving DecidableEq, Repr

namespace FileTree

/-- The location without dots, by name only. -/
def normalise (parts : List Text) : Location :=
  parts.foldl (fun loc p =>
    if p = [] ∨ p = ['.'] then loc
    else if p = ['.', '.'] then loc.dropLast
    else loc ++ [p]) []

/-- Replaces links in the parts that follow a location. `opened` holds the links that are being
replaced, so that a link among them is a loop; `enter` replaces the links in the target of one
more. -/
def replaceLinks (t : FileTree) (enter : List Location → Location → List Text → RealPath)
    (opened : List Location) : Location → List Text → RealPath
  | loc, [] => ⟨loc, true⟩
  | loc, part :: rest =>
    if part = [] ∨ part = ['.'] then t.replaceLinks enter opened loc rest
    else if part = ['.', '.'] then t.replaceLinks enter opened loc.dropLast rest
    else
      let next := loc ++ [part]
      match t.at? next with
      | some (.link target) =>
        if opened.contains next then ⟨next ++ rest, false⟩
        else
          let start := if target.head? = some '/' then [] else loc
          let inner := enter (next :: opened) start (Text.splitOn '/' target)
          if inner.complete then t.replaceLinks enter opened inner.loc rest
          else ⟨inner.loc ++ rest, false⟩
      | _ => t.replaceLinks enter opened next rest

/-- Replaces links at most so many levels deep, which is enough if there are no more links. -/
def realFrom (t : FileTree) : Nat → List Location → Location → List Text → RealPath
  | 0 => t.replaceLinks fun _ loc parts => ⟨loc ++ parts, false⟩
  | depth + 1 => t.replaceLinks (t.realFrom depth)

mutual

/-- The number of links in a tree, which bounds how many can be replaced within each other. -/
def countLinks : FileNode → Nat
  | .link _ => 1
  | .dir es => countLinksIn es
  | .file _ | .pipe => 0

/-- The number of links in the entries of a directory. -/
def countLinksIn : List (Text × FileNode) → Nat
  | [] => 0
  | (_, node) :: rest => countLinks node + countLinksIn rest

end

/-- The absolute path behind a path name. -/
def realPath (t : FileTree) (p : PathName) : PathName :=
  ⟨.root, normalise (t.realFrom (countLinks t.root) [] (t.startOf p) p.parts).loc⟩

end FileTree
end EnvAudit
