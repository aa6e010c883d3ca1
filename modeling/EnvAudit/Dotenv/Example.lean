import EnvAudit.Dotenv.Entry
import EnvAudit.Dotenv.Placeholder

/-!
# Example files

An example file has the lines of an environment file with a placeholder for every value, so that it
can be shared. Comments and blank lines stay as they are.
-/
namespace EnvAudit.EnvEntry

/-- The line of an entry in an example file; a variable without a key has none. -/
def exampleLine? (e : EnvEntry) : Option Text :=
  if e.isVariable then e.key.map fun k => k ++ '=' :: placeholder k else some e.raw

/-- The line of an entry in an example file. -/
def exampleLine (e : EnvEntry) : Text := e.exampleLine?.getD e.raw

/-- The example file of entries; there is none if a variable has no key. -/
def example? (entries : List EnvEntry) : Option Text :=
  (entries.mapM exampleLine?).map (Text.join ['\n'])

/-- The example file of parsed entries, whose variables all have keys. -/
def exampleText (entries : List EnvEntry) : Text := Text.join ['\n'] (entries.map exampleLine)

/-- Every variable that was read from a line has a key. -/
theorem exampleLine?_ofLine (n : Nat) (line : Text) :
    exampleLine? (ofLine n line) = some (exampleLine (ofLine n line)) := by
  unfold ofLine
  split
  · rfl
  · rfl
  · split <;> rfl

theorem example?_ofLines (n : Nat) (lines : List Text) :
    example? (ofLines n lines) = some (exampleText (ofLines n lines)) := by
  have h : (ofLines n lines).mapM exampleLine? = some ((ofLines n lines).map exampleLine) := by
    induction lines generalizing n with
    | nil => rfl
    | cons l ls ih => simp [ofLines, exampleLine?_ofLine, ih]
  simp [example?, exampleText, h]

/-- There is an example file of every environment file. -/
theorem example?_parse (content : Text) :
    example? (parse content) = some (exampleText (parse content)) :=
  example?_ofLines 1 _

end EnvAudit.EnvEntry
