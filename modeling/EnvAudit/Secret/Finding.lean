import EnvAudit.Check
import EnvAudit.Secret.Redaction
import EnvAudit.Secret.Registry

/-!
# Findings

The occurrences of secrets in a text, ordered by rule, then line, then column. A finding shows the
secret only in redacted form, with the line it stands in for context. `detect_append_rules` says
that each rule is applied for itself.
-/
namespace EnvAudit

/-- One occurrence of a secret. -/
structure SecretFinding where
  /-- The label of the rule. -/
  rule : Text
  file : Text
  /-- The number of the line, from 1. -/
  line : Int
  /-- The secret in redacted form. -/
  snippet : Text
  confidence : Confidence
  remediation : Text
  /-- The line without the white space around it, cut to a length. -/
  context : Text
deriving DecidableEq, Repr

namespace SecretFinding

/-- The most characters of a line that a finding shows. -/
def maxContext : Nat := 80

/-- The finding for one hit of a rule. -/
def ofHit (rule : SecretRule) (file : Text) (number : Nat) (line : Text) (hit : Hit) :
    SecretFinding where
  rule := rule.label
  file := file
  line := number
  snippet := Redaction.redact hit.text
  confidence := rule.confidence
  remediation := rule.remediation
  context := (Text.strip line).take maxContext

/-- The findings of a rule in one line. -/
def inLine (rule : SecretRule) (file : Text) (number : Nat) (line : Text) : List SecretFinding :=
  (rule.hits line).map (ofHit rule file number line)

/-- The findings of a rule in the lines from number `n` on. -/
def inLines (rule : SecretRule) (file : Text) : Nat → List Text → List SecretFinding
  | _, [] => []
  | n, line :: rest => inLine rule file n line ++ inLines rule file (n + 1) rest

/-- The findings of the rules in a text. -/
def detect (rules : List SecretRule) (content file : Text) : List SecretFinding :=
  let lines := Text.lines content
  rules.flatMap fun rule => inLines rule file 1 lines

theorem detect_append_rules (rules rules' : List SecretRule) (content file : Text) :
    detect (rules ++ rules') content file =
      detect rules content file ++ detect rules' content file := by
  simp [detect]

/-! ## Findings as data -/

/-- A finding as data. -/
def toData (f : SecretFinding) : Data :=
  .map [(.text "type".toList, .text f.rule), (.text "file".toList, .text f.file),
    (.text "line".toList, .int f.line), (.text "snippet".toList, .text f.snippet),
    (.text "confidence".toList, .text f.confidence.name),
    (.text "remediation".toList, .text f.remediation), (.text "context".toList, .text f.context)]

open Checked in
/-- A finding read from data. -/
def ofData (d : Data) (c : Coercion := .lenient) : Checked SecretFinding :=
  record d <|
    start SecretFinding.mk
      |>.ap (required "type" c.text d)
      |>.ap (required "file" c.text d)
      |>.ap (required "line" c.int d)
      |>.ap (required "snippet" c.text d)
      |>.ap (required "confidence" (named .notMember Confidence.ofName?) d)
      |>.ap (required "remediation" c.text d)
      |>.ap (optional "context" [] c.text d)

end SecretFinding
end EnvAudit
