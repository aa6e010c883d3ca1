import EnvAudit.Cli
import EnvAudit.FileTree.Change
import EnvAudit.Git.Index
import EnvAudit.Json.Printer

/-!
# The program

Reads a request from standard input, takes up the files that it is about, prints the answer, and
writes the example file if one was made.
-/
namespace EnvAudit.Main

/-- A name in a directory. -/
def entryIn (dir : Location) (name : Text) : IO.FS.DirEntry where
  root := String.ofList (PathName.mk .root dir).toText
  fileName := String.ofList name

/-- Takes up what is in a directory under a name. Directories that no scan enters are left empty;
what cannot be read is taken up as something without a text. -/
partial def takeUp (e : IO.FS.DirEntry) : IO FileNode := do
  try
    match (← e.path.symlinkMetadata).type with
    | .dir =>
      if Glob.isSkippedDir e.fileName.toList then return .dir []
      let entries ← e.path.readDir
      .dir <$> entries.toList.mapM fun c => return (c.fileName.toList, ← takeUp c)
    | .file => return .file (← IO.FS.readBinFile e.path).toList
    | .symlink => return .link (toString (← IO.FS.realPath e.path)).toList
    | .other => return .pipe
  catch _ => return .pipe

/-- The location of a path name without following links. -/
def locationOf (here : Location) (p : PathName) : Location :=
  FileTree.normalise ((if p.anchorage = .here then here else []) ++ p.parts)

/-- The names in the index of a repository that is kept in a directory. -/
def takeUpIndex (kept : Location) : IO (List Text) := do
  try return Git.indexNames (← IO.FS.readBinFile (entryIn kept "index".toList).path).toList
  catch _ => return []

/-- Where a repository is kept, from the file that says so in a directory. -/
def keptAt? (loc : Location) (bytes : List UInt8) : Option Location := do
  let start := "gitdir: ".toList
  let content ← Utf8.decode? bytes
  guard (start.isPrefixOf content)
  let path := (content.drop start.length).reverse.dropWhile fun c => c = '\n' || c = '\r'
  return locationOf loc (PathName.ofText path.reverse)

/-- Takes up the repositories that a directory may belong to. -/
def takeUpRepositories (t : FileTree) : Location → Nat → IO FileTree
  | _, 0 => return t
  | loc, levels + 1 => do
    let t ← takeUpRepositories t loc.dropLast levels
    let git := entryIn loc Git.gitDir
    let gitLoc := loc ++ [Git.gitDir]
    if ← git.path.isDir then
      let r : Repository := { top := loc, index := ← takeUpIndex gitLoc }
      return { t.withDir gitLoc with repositories := r :: t.repositories }
    else if ← git.path.pathExists then
      let bytes := (← IO.FS.readBinFile git.path).toList
      let t := (t.withDir loc).put gitLoc (.file bytes)
      match keptAt? loc bytes with
      | none => return t
      | some kept =>
        if !(← (entryIn kept "HEAD".toList).path.pathExists) then return t
        let r : Repository := { top := loc, index := ← takeUpIndex kept, linked := true }
        return { t with repositories := r :: t.repositories }
    else return t

/-- Takes up the directory that a path name leads to. -/
def takeUpDirectory (here : Location) (p : PathName) : IO FileTree := do
  let empty : FileTree := { root := .dir [], here := here }
  let t := empty.withDir here
  let loc := locationOf here p
  match loc.getLast? with
  | none => return t
  | some name =>
    let e := entryIn loc.dropLast name
    if ← e.path.pathExists then
      let real := (PathName.ofText (toString (← IO.FS.realPath e.path)).toList).parts
      let node ← takeUp (entryIn real.dropLast (real.getLast?.getD []))
      let t := t.put real node
      let t := if real = loc then t else t.put loc (.link (PathName.mk .root real).toText)
      takeUpRepositories t real (real.length + 1)
    else return t

/-- Writes a file if its content changed. -/
def writeBack (before after : FileTree) (p : PathName) : IO Unit := do
  match before.bytesOf? p, after.bytesOf? p with
  | .ok old, .ok (some bytes) =>
    if old != some bytes then
      let loc := (after.realPath p).parts
      let e := entryIn loc.dropLast (loc.getLast?.getD [])
      IO.FS.writeBinFile e.path ⟨bytes.toArray⟩
  | _, _ => return ()

/-- Answers a request about a directory. -/
def run (input : Text) (p : PathName) : IO UInt32 := do
  let here := (PathName.ofText (toString (← IO.currentDir)).toList).parts
  let files ← takeUpDirectory here p
  let workers := (← IO.getEnv "ENVINSPECT_MAX_WORKERS").map String.toList
  let answer := Cli.answer files { workers := workers } input
  for w in answer.warnings do
    IO.eprintln s!"WARNING: {String.ofList w}"
  match answer.outcome with
  | .ok a =>
    writeBack files a.files (p.child ExampleFile.defaultName)
    IO.println (String.ofList (Json.print a.output))
    return a.exitCode.toUInt32
  | .error f =>
    IO.eprintln (String.ofList f.message)
    return 1

end EnvAudit.Main

/-- Answers the request on standard input. -/
def main : IO UInt32 := do
  let input := (← (← IO.getStdin).readToEnd).toList
  let p := match EnvAudit.Json.read input with
    | .ok request => (EnvAudit.Cli.pathNameOf (EnvAudit.Cli.directoryOf request)).toOption
    | .error _ => none
  EnvAudit.Main.run input (p.getD (EnvAudit.PathName.ofText []))
