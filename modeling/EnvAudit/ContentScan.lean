import EnvAudit.EnvVar.Usage
import EnvAudit.Secret.Finding

/-!
# Scanning a text

What the known rules find in the text of one file: secrets, and usages of environment variables. The
result depends on the text and the file's name only.
-/
namespace EnvAudit

/-- What was found in one text. -/
structure ContentScan where
  secrets : List SecretFinding
  usages : List EnvKeyUsage
deriving DecidableEq, Repr

namespace ContentScan

/-- Scans a text with all known rules. -/
def scan (content file : Text) : ContentScan where
  secrets := SecretFinding.detect SecretRule.registry content file
  usages := EnvKeyUsage.find AccessRule.registry content file

/-- A scan as data. -/
def toData (s : ContentScan) : Data :=
  .map [(.text "secrets".toList, .list (s.secrets.map SecretFinding.toData)),
    (.text "env_usages".toList, .list (s.usages.map EnvKeyUsage.toData))]

end ContentScan
end EnvAudit
