import EnvAudit.FileTree.Access

/-!
# Making and removing entries

New entries of a file tree, with the directories on the way to them, and the removal of whatever a
name leads to.
-/
namespace EnvAudit.FileTree

/-- The file tree with the directory at a real location, which is made if it is not there. -/
def withDir (t : FileTree) (loc : Location) : FileTree :=
  match t.at? loc with
  | some (.dir _) => t
  | _ => t.put loc (.dir [])

/-- Makes an entry under a path name, with the directories above it. The content of a file goes
where the name leads; a directory that is there already is kept. -/
def make (t : FileTree) (p : PathName) (node : FileNode) : Except Failure FileTree :=
  let above := (t.realPath p.parent).parts
  let t := t.withDir above
  match node with
  | .file bytes => t.write p bytes
  | .dir _ => .ok (t.withDir (t.realPath p).parts)
  | .link _ | .pipe => .ok (t.put (above ++ [p.name]) node)

/-- Removes what a path name leads to, a link itself and a directory with all in it. -/
def remove (t : FileTree) (p : PathName) : Except Failure FileTree :=
  match t.lookup p false with
  | .error e => .error (.path e p.toText)
  | .ok (.vacant ..) => .error (.path .notFound p.toText)
  | .ok (.found loc _) => .ok (t.erase loc)

end EnvAudit.FileTree
