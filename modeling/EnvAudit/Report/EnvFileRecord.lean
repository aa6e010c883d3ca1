import EnvAudit.Check

/-!
# Records of environment files

What a report says of one environment file: whether it is under version control, and which keys it
sets.
-/
namespace EnvAudit

/-- How much an environment file matters: highly if it is under version control. -/
inductive EnvFileSeverity where
  | high
  | low
deriving DecidableEq, Repr

namespace EnvFileSeverity

/-- The name of a severity. -/
def name : EnvFileSeverity → Text
  | .high => "high".toList
  | .low => "low".toList

/-- The severity of a name. -/
def ofName? (t : Text) : Option EnvFileSeverity := [high, low].find? fun s => s.name == t

theorem ofName?_name (s : EnvFileSeverity) : ofName? s.name = some s := by cases s <;> decide

end EnvFileSeverity

/-- One environment file in a report. -/
structure EnvFileRecord where
  path : Text
  isCommitted : Bool
  keysFound : Int
  keys : List Text
  severity : EnvFileSeverity
  issue : Text
deriving DecidableEq, Repr

namespace EnvFileRecord

/-- The record of a file with its commit status and its keys. -/
def make (path : Text) (committed : Bool) (keys : List Text) : EnvFileRecord where
  path := path
  isCommitted := committed
  keysFound := keys.length
  keys := keys
  severity := if committed then .high else .low
  issue :=
    if committed then "Committed to git - should be in .gitignore".toList
    else "Not committed (OK)".toList

/-- A record as data. -/
def toData (r : EnvFileRecord) : Data :=
  .map [(.text "path".toList, .text r.path), (.text "is_committed".toList, .bool r.isCommitted),
    (.text "keys_found".toList, .int r.keysFound),
    (.text "keys".toList, .list (r.keys.map .text)),
    (.text "severity".toList, .text r.severity.name), (.text "issue".toList, .text r.issue)]

open Checked in
/-- A record read from data. -/
def ofData (d : Data) (c : Coercion := .lenient) : Checked EnvFileRecord :=
  record d <|
    start EnvFileRecord.mk
      |>.ap (required "path" c.text d)
      |>.ap (optional "is_committed" false c.bool d)
      |>.ap (optional "keys_found" 0 c.int d)
      |>.ap (optional "keys" [] (list c c.text) d)
      |>.ap (optional "severity" .low (named .notChoice EnvFileSeverity.ofName?) d)
      |>.ap (optional "issue" [] c.text d)

end EnvFileRecord
end EnvAudit
