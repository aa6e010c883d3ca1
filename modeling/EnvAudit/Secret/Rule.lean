import EnvAudit.Pattern.Search
import EnvAudit.Secret.Confidence

/-!
# Secret rules

A rule knows one shape of secret: its pattern, how sure a match is, and what to do about one.
Patterns of rules ignore case.
-/
namespace EnvAudit

/-- One shape of secret. -/
structure SecretRule where
  label : Text
  pattern : Pattern
  confidence : Confidence
  remediation : Text
deriving Repr

namespace SecretRule

/-- A rule from its parts; its pattern ignores case. -/
def make (label : String) (pattern : Pattern) (confidence : Confidence) (remediation : String) :
    SecretRule where
  label := label.toList
  pattern := pattern.ignoringCase
  confidence := confidence
  remediation := remediation.toList

/-- The occurrences of the shape in a line, left to right. -/
def hits (rule : SecretRule) (line : Text) : List Hit := rule.pattern.hits line

end SecretRule
end EnvAudit
