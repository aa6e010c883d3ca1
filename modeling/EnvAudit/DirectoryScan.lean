import EnvAudit.Candidates
import EnvAudit.ContentScan
import EnvAudit.FileTree.Access

/-!
# Scanning a directory

Every candidate file below a root is read and scanned by itself; the results are put together in the
order of the candidates. A file that cannot be read is counted and otherwise passed over.
-/
namespace EnvAudit

/-- What was found in the files below a directory. -/
structure DirectoryScan where
  secrets : List SecretFinding
  usages : List EnvKeyUsage
  filesScanned : Nat
  filesSkipped : Nat
deriving DecidableEq, Repr

/-- Scans a file, if it has a text; findings show the name `shown`. -/
def scanFileAs (t : FileTree) (file : PathName) (shown : Text) (maxSize : Int) :
    Except Failure (Option ContentScan) :=
  match t.readText file maxSize with
  | .ok content => .ok (content.map fun c => ContentScan.scan c shown)
  | .error e => .error e

/-- Scans a file. Findings show its path below the base if there is one, else its name. -/
def scanFile (t : FileTree) (file : PathName) (base : Option PathName) (maxSize : Int) :
    Except Failure (Option ContentScan) :=
  let shown := match base with
    | some b => file.display b
    | none => file.toText
  scanFileAs t file shown maxSize

namespace DirectoryScan

/-- The start of a list up to a limit; a negative limit counts from the end. -/
def takeUpTo {α : Type} (limit : Int) (xs : List α) : List α :=
  if 0 ≤ limit then xs.take limit.toNat else xs.take (xs.length - limit.natAbs)

/-- Puts the results of files together; a file without text has none. -/
def ofFiles (results : List (Option ContentScan)) : DirectoryScan :=
  let scanned := results.filterMap id
  { secrets := scanned.flatMap (·.secrets)
    usages := EnvKeyUsage.merge (scanned.map (·.usages))
    filesScanned := scanned.length
    filesSkipped := results.length - scanned.length }

/-- What is asked of a scan of a directory. -/
structure Options where
  globs : List Text := []
  maxFiles : Option Int := none
  maxWorkers : Int := 4
  maxSize : Int := FileTree.defaultMaxSize
deriving DecidableEq, Repr

/-- Fails unless a directory is at the root. -/
def checkRoot (t : FileTree) (root : PathName) : Except Failure Unit := do
  unless ← FileTree.orFail root (t.exists? root) do
    throw (.scanRootMissing root.toText)
  unless ← FileTree.orFail root (t.isDir? root) do
    throw (.scanRootNotDirectory root.toText)

/-- Scans the candidates below a root. The number of workers only has to be positive; it changes
nothing else. -/
def scan (t : FileTree) (root : PathName) (options : Options) : Except Failure DirectoryScan := do
  checkRoot t root
  let all ← FileTree.orFail root (t.candidates root options.globs)
  let files := match options.maxFiles with
    | some limit => takeUpTo limit all
    | none => all
  if options.maxWorkers ≤ 0 then throw .noWorkers
  let results ← files.mapM fun rel =>
    scanFile t (root.descend rel) (some root) options.maxSize
  return ofFiles results

/-- A scan as data. -/
def toData (s : DirectoryScan) : Data :=
  .map [(.text "secrets".toList, .list (s.secrets.map SecretFinding.toData)),
    (.text "env_usages".toList, .list (s.usages.map EnvKeyUsage.toData)),
    (.text "files_scanned".toList, .int s.filesScanned),
    (.text "files_skipped".toList, .int s.filesSkipped)]

end DirectoryScan
end EnvAudit
