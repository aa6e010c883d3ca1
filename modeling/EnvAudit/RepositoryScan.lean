import EnvAudit.Config
import EnvAudit.DirectoryScan
import EnvAudit.Inventory
import EnvAudit.Report.Basic

/-!
# Scanning a repository

A scan of a repository reads its files, takes the inventory of its environment files, and puts both
into a report. The root is resolved first, so that everything is asked of one real directory. Globs
and limits that are asked for come on top of the configuration.
-/
namespace EnvAudit.RepositoryScan

/-- What is asked of a scan of a repository, beside its configuration. -/
structure Options where
  globs : List Text := []
  maxFiles : Option Int := none
  tracker : Tracker
  /-- Findings from the history of the repository. -/
  history : List SecretFinding := []
  /-- How the file with options is read. -/
  readers : ScanConfig.Readers := {}

/-- What a scan gives: the report, and the paths that a given tracker was asked about. -/
structure Result where
  report : ScanReport
  asked : List Text
deriving DecidableEq, Repr

/-- The real directory behind a path name. -/
def openRoot (t : FileTree) (p : PathName) : Except Failure PathName := do
  let root ← t.resolve p
  DirectoryScan.checkRoot t root
  return root

/-- The globs of a configuration with further ones, each once. -/
def allGlobs (config : ScanConfig) (globs : List Text) : List Text :=
  (config.exclude ++ globs).eraseDups

/-- Scans the repository at a real directory, leaving out what the globs name. -/
def scanAt (t : FileTree) (root : PathName) (config : ScanConfig) (globs : List Text)
    (options : Options) : Logged Result := do
  let scan ← Logged.ofExcept (DirectoryScan.scan t root
    { globs := globs
      maxFiles := options.maxFiles.orElse fun _ => config.maxFiles
      maxWorkers := config.maxWorkers
      maxSize := config.maxFileSize })
  let inventory ← Inventory.take t root globs options.tracker
  return {
    report := ScanReport.make scan.secrets scan.usages inventory.records scan.filesScanned
      scan.filesSkipped options.history
    asked := inventory.asked }

/-- Scans a repository with a configuration, or with the one that is loaded from it. -/
def scan (t : FileTree) (p : PathName) (config : Option ScanConfig) (workers : Option Text)
    (options : Options) : Logged Result := do
  let root ← Logged.ofExcept (openRoot t p)
  let config ← match config with
    | some c => pure c
    | none => ScanConfig.load t root workers options.readers
  scanAt t root config (allGlobs config options.globs) options

end EnvAudit.RepositoryScan
