import EnvAudit.Text.Lowercase

/-!
# Placeholders

A harmless value for a variable, guessed from its name. The rules are tried in order, so that a name
with several telling words gets the value of the first rule that knows one of them.
-/
namespace EnvAudit

/-- A rule for placeholders: the words that it looks for in a lower-cased name, and its value. -/
structure PlaceholderRule where
  words : List Text
  value : Text
deriving DecidableEq, Repr

namespace PlaceholderRule

/-- Whether one of the words occurs in a lower-cased name. -/
def applies (rule : PlaceholderRule) (name : Text) : Bool :=
  rule.words.any fun w => Text.includes w name

/-- A rule from words and a value. -/
def make (words : List String) (value : String) : PlaceholderRule :=
  ⟨words.map String.toList, value.toList⟩

/-- The known rules. An address of a database counts as an address, its host as a host. -/
def registry : List PlaceholderRule :=
  [make ["url", "uri"] "https://example.com",
    make ["port"] "3000",
    make ["email"] "your_email_here",
    make ["host"] "localhost",
    make ["key", "secret", "token"] "your_secret_key_here",
    make ["database", "db"] "database_name",
    make ["user"] "username",
    make ["pass"] "password",
    make ["env", "environment"] "development"]

end PlaceholderRule

/-- The value for names that no rule knows. -/
def defaultPlaceholder : Text := "your_value_here".toList

/-- The placeholder for a name by the given rules. -/
def placeholderBy (rules : List PlaceholderRule) (name : Text) : Text :=
  match rules.find? fun r => r.applies (Text.lower name) with
  | some r => r.value
  | none => defaultPlaceholder

/-- The placeholder for a name. -/
def placeholder (name : Text) : Text := placeholderBy PlaceholderRule.registry name

end EnvAudit
