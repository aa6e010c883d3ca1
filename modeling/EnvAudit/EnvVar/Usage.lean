import EnvAudit.Check
import EnvAudit.EnvVar.AccessRule

/-!
# Usages of environment variables

Where a text reads which environment variable. Usages are grouped by name, in the order in which the
names come first, and merging the usages of several texts keeps the order of their locations.
`merge_append` says that usages can be merged in one go or part by part.
-/
namespace EnvAudit

/-- A place that reads an environment variable. -/
structure EnvKeyLocation where
  file : Text
  line : Int
  /-- The line without the white space around it, cut to a length. -/
  snippet : Text
deriving DecidableEq, Repr

/-- A variable and all places that read it. -/
structure EnvKeyUsage where
  name : Text
  locations : List EnvKeyLocation
deriving DecidableEq, Repr

namespace EnvKeyUsage

/-! ## Merging -/

/-- Adds locations to the usage of a name; a new name comes last. -/
def addLocations (name : Text) (locations : List EnvKeyLocation) :
    List EnvKeyUsage → List EnvKeyUsage
  | [] => [⟨name, locations⟩]
  | u :: rest =>
    if u.name = name then { u with locations := u.locations ++ locations } :: rest
    else u :: addLocations name locations rest

/-- Adds usages one after another. -/
def mergeInto (merged usages : List EnvKeyUsage) : List EnvKeyUsage :=
  usages.foldl (fun acc u => addLocations u.name u.locations acc) merged

/-- One usage per name, from the usages of several texts in order. -/
def merge (partials : List (List EnvKeyUsage)) : List EnvKeyUsage :=
  partials.foldl mergeInto []

theorem mergeInto_append (merged us vs : List EnvKeyUsage) :
    mergeInto merged (us ++ vs) = mergeInto (mergeInto merged us) vs := by
  simp [mergeInto]

theorem merge_append (ps qs : List (List EnvKeyUsage)) :
    merge (ps ++ qs) = qs.foldl mergeInto (merge ps) := by
  simp [merge]

/-! ## Finding -/

/-- The most characters of a line that a location shows. -/
def maxSnippet : Nat := 100

/-- The order of readings in a line: by column, then by name. -/
def comesBefore (a b : Nat × Text) : Bool :=
  a.1 < b.1 || (a.1 == b.1 && a.2 != b.2 && Text.le a.2 b.2)

/-- Puts a reading into its place among readings in order; one that is there already stays alone. -/
def place (a : Nat × Text) : List (Nat × Text) → List (Nat × Text)
  | [] => [a]
  | b :: rest => if a = b then b :: rest else if comesBefore a b then a :: b :: rest
    else b :: place a rest

/-- What the rules read in a line, in order; what two rules read at one column counts once. -/
def readings (rules : List AccessRule) (line : Text) : List (Nat × Text) :=
  (rules.flatMap (·.names line)).foldr place []

/-- The usages in one line, one for each reading. -/
def inLine (rules : List AccessRule) (file : Text) (number : Nat) (line : Text) :
    List EnvKeyUsage :=
  (readings rules line).map fun r => ⟨r.2, [⟨file, number, (Text.strip line).take maxSnippet⟩]⟩

/-- The usages in the lines from number `n` on, one for each reading. -/
def inLines (rules : List AccessRule) (file : Text) : Nat → List Text → List EnvKeyUsage
  | _, [] => []
  | n, line :: rest => inLine rules file n line ++ inLines rules file (n + 1) rest

/-- The usages in a text, one for each name. -/
def find (rules : List AccessRule) (content file : Text) : List EnvKeyUsage :=
  mergeInto [] (inLines rules file 1 (Text.lines content))

end EnvKeyUsage

/-! ## Usages as data -/

namespace EnvKeyLocation

/-- A location as data. -/
def toData (l : EnvKeyLocation) : Data :=
  .map [(.text "file".toList, .text l.file), (.text "line".toList, .int l.line),
    (.text "snippet".toList, .text l.snippet)]

open Checked in
/-- A location read from data. -/
def ofData (d : Data) (c : Coercion := .lenient) : Checked EnvKeyLocation :=
  record d <|
    start EnvKeyLocation.mk
      |>.ap (required "file" c.text d)
      |>.ap (required "line" c.int d)
      |>.ap (required "snippet" c.text d)

end EnvKeyLocation

namespace EnvKeyUsage

/-- A usage as data; the number of locations is given beside them. -/
def toData (u : EnvKeyUsage) : Data :=
  .map [(.text "name".toList, .text u.name),
    (.text "locations".toList, .list (u.locations.map EnvKeyLocation.toData)),
    (.text "usage_count".toList, .int u.locations.length)]

open Checked in
/-- A usage read from data. -/
def ofData (d : Data) (c : Coercion := .lenient) : Checked EnvKeyUsage :=
  record d <|
    start EnvKeyUsage.mk
      |>.ap (required "name" c.text d)
      |>.ap (optional "locations" [] (list c (EnvKeyLocation.ofData · c)) d)

end EnvKeyUsage
end EnvAudit
