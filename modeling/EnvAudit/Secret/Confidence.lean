import EnvAudit.Text

/-!
# Confidence

How likely a match is a real secret: high for shapes that only credentials have, medium for a value
behind a telling word, low for shapes alone.
-/
namespace EnvAudit

/-- How likely a match is a real secret. -/
inductive Confidence where
  | high
  | medium
  | low
deriving DecidableEq, Repr

namespace Confidence

/-- The name of a confidence in reports. -/
def name : Confidence → Text
  | .high => "high".toList
  | .medium => "medium".toList
  | .low => "low".toList

/-- The confidence of a name. -/
def ofName? (t : Text) : Option Confidence :=
  [high, medium, low].find? fun c => c.name == t

theorem ofName?_name (c : Confidence) : ofName? c.name = some c := by cases c <;> decide

end Confidence
end EnvAudit
