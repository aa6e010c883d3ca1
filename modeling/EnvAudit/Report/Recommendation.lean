import EnvAudit.EnvVar.Usage
import EnvAudit.Report.EnvFileRecord
import EnvAudit.Secret.Finding

/-!
# Recommendations

What to do about the results of a scan, the most urgent first. The advice to set up a check before
each commit is always given, and always last.
-/
namespace EnvAudit

/-- How urgent a recommendation is. -/
inductive Priority where
  | critical
  | high
  | medium
  | info
deriving DecidableEq, Repr

/-- The name of a priority. -/
def Priority.name : Priority → Text
  | .critical => "CRITICAL".toList
  | .high => "HIGH".toList
  | .medium => "MEDIUM".toList
  | .info => "INFO".toList

/-- One piece of advice. -/
structure Recommendation where
  priority : Priority
  action : Text
  details : Text
deriving DecidableEq, Repr

namespace Recommendation

/-- The line of a report that gives the advice. -/
def text (r : Recommendation) : Text :=
  '[' :: r.priority.name ++ "] ".toList ++ r.action ++ ": ".toList ++ r.details

/-- The name of an environment file. -/
def envFileName : Text := ".env".toList

/-- The name of an example file. -/
def exampleFileName : Text := ".env.example".toList

/-- More variables than this should be documented. -/
def undocumentedKeys : Nat := 10

/-- The number of findings of a confidence. -/
def countOf (confidence : Confidence) (secrets : List SecretFinding) : Nat :=
  secrets.countP fun s => s.confidence == confidence

/-- Advice on findings that are almost certainly real. -/
def rotateSecrets (secrets : List SecretFinding) : Option Recommendation :=
  let n := countOf .high secrets
  if n = 0 then none
  else some
    ⟨.critical, "Rotate ".toList ++ natText n ++ " high-confidence secret(s) immediately".toList,
      "High-confidence secrets detected in code. See remediation for each finding.".toList⟩

/-- Advice on environment files under version control. -/
def untrackEnvFiles (envFiles : List EnvFileRecord) : Option Recommendation :=
  if envFiles.any (·.isCommitted) then some
    ⟨.critical, "Remove .env files from git tracking".toList,
      "Add .env to .gitignore and use git filter-repo to remove it from history.".toList⟩
  else none

/-- Advice on an environment file without an example beside it. -/
def generateExample (envFiles : List EnvFileRecord) : Option Recommendation :=
  let paths := envFiles.map (·.path)
  if paths.contains envFileName && !paths.contains exampleFileName then some
    ⟨.high, "Generate .env.example file".toList,
      "Create a .env.example with placeholder values for team documentation.".toList⟩
  else none

/-- Advice on many variables. -/
def documentKeys (usages : List EnvKeyUsage) : Option Recommendation :=
  if undocumentedKeys < usages.length then some
    ⟨.medium, "Document environment variables".toList,
      "Found ".toList ++ natText usages.length ++
        " environment variables. Document them in README.md or .env.example.".toList⟩
  else none

/-- Advice on findings that may be real. -/
def reviewFindings (secrets : List SecretFinding) : Option Recommendation :=
  let n := countOf .medium secrets
  if n = 0 then none
  else some
    ⟨.medium, "Review ".toList ++ natText n ++ " medium-confidence finding(s)".toList,
      "These may be false positives but should be verified.".toList⟩

/-- The advice that is always given. -/
def preCommitHook : Recommendation :=
  ⟨.info, "Set up pre-commit hooks".toList,
    "Run envinspect in a git pre-commit hook to prevent accidental commits.".toList⟩

/-- The advice on the results of a scan, the most urgent first. -/
def forScan (secrets : List SecretFinding) (envFiles : List EnvFileRecord)
    (usages : List EnvKeyUsage) : List Recommendation :=
  (rotateSecrets secrets).toList ++ (untrackEnvFiles envFiles).toList ++
    (generateExample envFiles).toList ++ (documentKeys usages).toList ++
    (reviewFindings secrets).toList ++ [preCommitHook]

end Recommendation
end EnvAudit
