import EnvAudit.Report.Recommendation
import EnvAudit.Report.Risk

/-!
# Reports

A report holds everything a scan found, a summary of it, and recommendations. `make` puts one
together; findings from the history of the repository come after those from its files and count in
the same way.
-/
namespace EnvAudit

/-- The numbers at the head of a report. -/
structure ScanSummary where
  filesScanned : Int
  filesSkipped : Int
  envKeysFound : Int
  secretsFound : Int
  envFilesFound : Int
  committedEnvFiles : Int
  severity : SeverityCounts
  overallRisk : RiskLevel
deriving DecidableEq, Repr

namespace ScanSummary

/-- The summary of an empty report. -/
def empty : ScanSummary := ⟨0, 0, 0, 0, 0, 0, .zero, .none⟩

/-- A summary as data. -/
def toData (s : ScanSummary) : Data :=
  .map [(.text "files_scanned".toList, .int s.filesScanned),
    (.text "files_skipped".toList, .int s.filesSkipped),
    (.text "env_keys_found".toList, .int s.envKeysFound),
    (.text "secrets_found".toList, .int s.secretsFound),
    (.text "env_files_found".toList, .int s.envFilesFound),
    (.text "committed_env_files".toList, .int s.committedEnvFiles),
    (.text "severity".toList, s.severity.toData),
    (.text "overall_risk".toList, .text s.overallRisk.name)]

open Checked in
/-- A summary read from data. -/
def ofData (d : Data) (c : Coercion := .lenient) : Checked ScanSummary :=
  record d <|
    start ScanSummary.mk
      |>.ap (optional "files_scanned" 0 c.int d)
      |>.ap (optional "files_skipped" 0 c.int d)
      |>.ap (optional "env_keys_found" 0 c.int d)
      |>.ap (optional "secrets_found" 0 c.int d)
      |>.ap (optional "env_files_found" 0 c.int d)
      |>.ap (optional "committed_env_files" 0 c.int d)
      |>.ap (optional "severity" .zero (SeverityCounts.ofData · c) d)
      |>.ap (optional "overall_risk" .none (named .notMember RiskLevel.ofName?) d)

end ScanSummary

/-- The results of a scan. -/
structure ScanReport where
  summary : ScanSummary
  envKeys : List EnvKeyUsage
  secrets : List SecretFinding
  envFiles : List EnvFileRecord
  recommendations : List Text
deriving DecidableEq, Repr

namespace ScanReport

/-- Puts a report together. -/
def make (secrets : List SecretFinding) (usages : List EnvKeyUsage)
    (envFiles : List EnvFileRecord) (filesScanned filesSkipped : Int)
    (history : List SecretFinding) : ScanReport :=
  let all := secrets ++ history
  let counts := SeverityCounts.ofFindings all
  let committed := envFiles.countP (·.isCommitted)
  { summary :=
      { filesScanned := filesScanned
        filesSkipped := filesSkipped
        envKeysFound := usages.length
        secretsFound := all.length
        envFilesFound := envFiles.length
        committedEnvFiles := committed
        severity := counts
        overallRisk := .overall counts committed }
    envKeys := usages
    secrets := all
    envFiles := envFiles
    recommendations := (Recommendation.forScan all envFiles usages).map (·.text) }

/-- A report as data. -/
def toData (r : ScanReport) : Data :=
  .map [(.text "summary".toList, r.summary.toData),
    (.text "env_keys".toList, .list (r.envKeys.map EnvKeyUsage.toData)),
    (.text "secrets".toList, .list (r.secrets.map SecretFinding.toData)),
    (.text "env_files".toList, .list (r.envFiles.map EnvFileRecord.toData)),
    (.text "recommendations".toList, .list (r.recommendations.map .text))]

open Checked in
/-- A report read from data. -/
def ofData (d : Data) (c : Coercion := .lenient) : Checked ScanReport :=
  record d <|
    start ScanReport.mk
      |>.ap (optional "summary" .empty (ScanSummary.ofData · c) d)
      |>.ap (optional "env_keys" [] (list c (EnvKeyUsage.ofData · c)) d)
      |>.ap (optional "secrets" [] (list c (SecretFinding.ofData · c)) d)
      |>.ap (optional "env_files" [] (list c (EnvFileRecord.ofData · c)) d)
      |>.ap (optional "recommendations" [] (list c c.text) d)

end ScanReport
end EnvAudit
