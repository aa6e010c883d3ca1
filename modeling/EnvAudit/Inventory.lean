import EnvAudit.Candidates
import EnvAudit.Dotenv.Entry
import EnvAudit.FileTree.Access
import EnvAudit.Git.Repository
import EnvAudit.Logged
import EnvAudit.Report.EnvFileRecord

/-!
# Inventory of environment files

Every environment file below a root gets one record, in the order of the candidates: whether it is
under version control and which keys it sets. Whoever is asked about version control is asked once
for each file; a question without an answer counts as no and leaves a warning.
-/
namespace EnvAudit

/-- Who is asked whether a file is under version control. -/
inductive Tracker where
  /-- Version control over the repositories of the tree, as far as it is installed. -/
  | repository (installed : Bool)
  /-- Version control, whatever it answers. -/
  | program (git : Git.Program)
  /-- Somebody who answers for a path or says why there is no answer. -/
  | given (ask : Text → Except Text Bool)

/-- The version control that is asked, unless somebody else is. -/
def Tracker.program? (t : FileTree) : Tracker → Option Git.Program
  | .repository installed => some (Git.program t installed)
  | .program git => some git
  | .given _ => none

/-- The environment files below a root, and the questions asked on the way. -/
structure Inventory where
  records : List EnvFileRecord
  /-- The paths that a given tracker was asked about. -/
  asked : List Text
deriving DecidableEq, Repr

namespace Inventory

/-- Whether a file is an environment file by its name. -/
def isEnvFile (path : RelPath) : Bool := ".env".toList.isPrefixOf (path.getLast?.getD [])

/-- The environment files among the candidates below a root. -/
def findEnvFiles (t : FileTree) (root : PathName) (globs : List Text) :
    Except PathProblem (List RelPath) :=
  (t.candidates root globs).map fun paths => paths.filter isEnvFile

/-- The answer of version control for a path. Outside of any repository no file is under version
control. -/
def answerOf (git : Git.Program) (root : PathName) (path : Text) : Except Text Bool :=
  match git.isRepository root with
  | .ok false => .ok false
  | _ =>
    match git.isTracked root path with
    | .ok b => .ok b
    | .error p => .error (p.message path)

/-- The answer for a path. -/
def answer (t : FileTree) (root : PathName) (tracker : Tracker) (path : Text) :
    Except Text Bool :=
  match tracker with
  | .given ask => ask path
  | .repository installed => answerOf (Git.program t installed) root path
  | .program git => answerOf git root path

/-- The commit status of a path: without an answer it is taken for not committed, with a
warning. -/
def commitStatus (path : Text) : Except Text Bool → Logged Bool
  | .ok b => pure b
  | .error reason => do
    Logged.warn ("Could not determine git status of ".toList ++ path ++ ": ".toList ++ reason)
    return false

/-- The keys that the text of an environment file sets; a file without text sets none. -/
def keysOf : Option Text → List Text
  | some content => EnvEntry.keys (EnvEntry.parse content)
  | none => []

/-- The record of one environment file. -/
def recordOf (t : FileTree) (root : PathName) (tracker : Tracker) (rel : RelPath) :
    Logged EnvFileRecord := do
  let file := root.descend rel
  let path := file.display root
  let committed ← commitStatus path (answer t root tracker path)
  let content ← Logged.ofExcept (t.readText file FileTree.defaultMaxSize)
  return EnvFileRecord.make path committed (keysOf content)

/-- The inventory of the environment files below a root. -/
def take (t : FileTree) (root : PathName) (globs : List Text) (tracker : Tracker) :
    Logged Inventory := do
  let files ← Logged.ofExcept (FileTree.orFail root (findEnvFiles t root globs))
  let records ← files.mapM (recordOf t root tracker)
  let asked := match tracker with
    | .given _ => records.map (·.path)
    | .repository _ | .program _ => []
  return { records := records, asked := asked }

end Inventory
end EnvAudit
