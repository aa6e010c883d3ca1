import EnvAudit.Text

/-!
# Line ends

Texts from other systems end their lines with a carriage return, with or without a line feed behind
it. Read with unified line ends, every such pair and every lone carriage return is one line feed:
`unifyNewlines_no_return`.
-/
namespace EnvAudit.Text

/-- What a character becomes after the one before it: a carriage return is a line feed, and a line
feed behind one is nothing. -/
def unifyNewline (before c : Char) : Option Char :=
  if c = '\r' then some '\n' else if c = '\n' ∧ before = '\r' then none else some c

/-- The text with every line end as a line feed. -/
def unifyNewlines (t : Text) : Text :=
  (List.zip ('\n' :: t) t).filterMap fun p => unifyNewline p.1 p.2

/-- No carriage return is left. -/
theorem unifyNewlines_no_return (t : Text) : '\r' ∉ unifyNewlines t := by
  intro h
  obtain ⟨⟨b, c⟩, -, hc⟩ := List.mem_filterMap.mp h
  simp only [unifyNewline] at hc
  split at hc
  · simp at hc
  · rename_i hne
    split at hc
    · cases hc
    · exact hne (Option.some.inj hc)

/-- A text without carriage returns stays as it is. -/
theorem unifyNewlines_of_no_return {t : Text} (h : '\r' ∉ t) : unifyNewlines t = t := by
  suffices ∀ b, b ≠ '\r' →
      (List.zip (b :: t) t).filterMap (fun p => unifyNewline p.1 p.2) = t from
    this '\n' (by decide)
  induction t with
  | nil => intro _ _; rfl
  | cons c t ih =>
    intro b hb
    have hc : c ≠ '\r' := fun e => h (e ▸ List.mem_cons_self)
    have ht : '\r' ∉ t := fun m => h (List.mem_cons_of_mem _ m)
    have hu : unifyNewline b c = some c := by simp [unifyNewline, hc, hb]
    rw [List.zip_cons_cons, List.filterMap_cons, hu, ih ht c hc]

end EnvAudit.Text
