import EnvAudit.Text

/-!
# Redaction

A secret is shown with its middle masked, so that its owner knows it again and no reader can use it.
A short one is not shown at all. `redact_of_short` and `length_redact` say that the shown form of a
short secret is always the same and that of a long one has the secret's length.
-/
namespace EnvAudit.Redaction

/-- What stands for a secret too short to be shown in part. -/
def marker : Text := "***REDACTED***".toList

/-- The character that stands for a hidden one. -/
def mask : Char := '*'

/-- The length up to which a secret is not shown at all. -/
def shortLength : Nat := 8

/-- How many characters are kept at the start. -/
def keptHead : Nat := 4

/-- How many characters are kept at the end. -/
def keptTail : Nat := 2

/-- The form in which a secret is shown. -/
def redact (value : Text) : Text :=
  if value.length ≤ shortLength then marker
  else
    value.take keptHead ++ List.replicate (value.length - keptHead - keptTail) mask ++
      value.drop (value.length - keptTail)

/-! ## What the shown form gives away -/

theorem redact_of_short {v : Text} (h : v.length ≤ shortLength) : redact v = marker := by
  simp [redact, h]

theorem length_redact {v : Text} (h : shortLength < v.length) : (redact v).length = v.length := by
  unfold redact
  rw [if_neg (Nat.not_le.mpr h)]
  simp only [shortLength] at h
  simp [keptHead, keptTail]
  omega

end EnvAudit.Redaction
