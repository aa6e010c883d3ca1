import EnvAudit.Check
import EnvAudit.Text.CaseFold

/-!
# Entries of an environment file

An environment file is read line by line, and every line becomes an entry that keeps its own text,
so that nothing is lost: `render_parse`. A line is a variable if a key stands before its first
equals sign, a comment if it starts with a number sign or is nothing else, and empty if it is blank.
-/
namespace EnvAudit

/-- What a line of an environment file is. -/
inductive EntryKind where
  | comment
  | empty
  | assignment
deriving DecidableEq, Repr

namespace EntryKind

/-- The name of a kind of entry. -/
def name : EntryKind → Text
  | .comment => "comment".toList
  | .empty => "empty".toList
  | .assignment => "variable".toList

/-- The kind of entry of a name. -/
def ofName? (t : Text) : Option EntryKind :=
  [comment, empty, assignment].find? fun k => k.name == t

theorem ofName?_name (k : EntryKind) : ofName? k.name = some k := by cases k <;> decide

end EntryKind

/-- One line of an environment file. -/
structure EnvEntry where
  kind : EntryKind
  /-- The line as it stands. -/
  raw : Text
  /-- The number of the line, from 1. -/
  lineNumber : Int
  key : Option Text
  value : Option Text
deriving DecidableEq, Repr

namespace EnvEntry

/-! ## Reading -/

/-- A letter of a key: a letter of ASCII, or one that is such a letter when case is ignored. -/
def isKeyLetter (c : Char) : Bool := (caseVariants c).any fun v => 'A' ≤ v && v ≤ 'Z'

/-- A character that a key can start with. -/
def isKeyStart (c : Char) : Bool := isKeyLetter c || c == '_'

/-- A character of a key. -/
def isKeyChar (c : Char) : Bool := isKeyStart c || isAsciiDigit c

/-- The key and the value of an assignment: white space, a key, white space, an equals sign, and
the value, which is stripped. -/
def assignment? (line : Text) : Option (Text × Text) :=
  let t := Text.stripLeft line
  let key := t.takeWhile isKeyChar
  let rest := Text.stripLeft (t.drop key.length)
  match key, rest with
  | c :: _, '=' :: value => if isKeyStart c then some (key, Text.strip value) else none
  | _, _ => none

/-- The entry of one line. -/
def ofLine (number : Nat) (line : Text) : EnvEntry :=
  match Text.strip line with
  | [] => ⟨.empty, line, number, none, none⟩
  | '#' :: _ => ⟨.comment, line, number, none, none⟩
  | _ =>
    match assignment? line with
    | some (key, value) => ⟨.assignment, line, number, some key, some value⟩
    | none => ⟨.comment, line, number, none, none⟩

/-- The entries of the lines from number `n` on. -/
def ofLines : Nat → List Text → List EnvEntry
  | _, [] => []
  | n, line :: rest => ofLine n line :: ofLines (n + 1) rest

/-- The entries of an environment file. -/
def parse (content : Text) : List EnvEntry := ofLines 1 (Text.lines content)

/-- The text of entries: each as it stood in its file. -/
def render (entries : List EnvEntry) : Text := Text.join ['\n'] (entries.map raw)

/-- Whether an entry is a variable. -/
def isVariable (e : EnvEntry) : Bool := e.kind == .assignment

/-- The keys of the variables, in order. -/
def keys (entries : List EnvEntry) : List Text := (entries.filter isVariable).filterMap key

/-! ## Nothing is lost -/

@[simp] theorem raw_ofLine (n : Nat) (line : Text) : (ofLine n line).raw = line := by
  unfold ofLine
  split <;> try rfl
  split <;> rfl

theorem map_raw_ofLines (n : Nat) (lines : List Text) : (ofLines n lines).map raw = lines := by
  induction lines generalizing n with
  | nil => rfl
  | cons l ls ih => simp [ofLines, ih]

/-- Rendering what was parsed gives the file back. -/
theorem render_parse (content : Text) : render (parse content) = content := by
  rw [render, parse, map_raw_ofLines]
  exact Text.join_splitOn '\n' content

/-! ## Entries as data -/

/-- A text that may be absent, as data. -/
def optionalText : Option Text → Data
  | some t => .text t
  | none => .null

/-- An entry as data. -/
def toData (e : EnvEntry) : Data :=
  .map [(.text "type".toList, .text e.kind.name), (.text "raw".toList, .text e.raw),
    (.text "line_number".toList, .int e.lineNumber), (.text "key".toList, optionalText e.key),
    (.text "value".toList, optionalText e.value)]

open Checked in
/-- An entry read from data. -/
def ofData (d : Data) (c : Coercion := .lenient) : Checked EnvEntry :=
  record d <|
    start EnvEntry.mk
      |>.ap (required "type" (named .notChoice EntryKind.ofName?) d)
      |>.ap (required "raw" c.text d)
      |>.ap (required "line_number" c.int d)
      |>.ap (optional "key" none (orNull c.text) d)
      |>.ap (optional "value" none (orNull c.text) d)

end EnvEntry
end EnvAudit
