import EnvAudit.Check
import EnvAudit.FileTree.RawName
import EnvAudit.Logged
import EnvAudit.Yaml.Reader

/-!
# Configuration of a scan

The options of a scan come from three places: the defaults, a file in the directory to scan, and the
environment, which sets the number of workers. What cannot be used leaves a warning and the defaults
stand. How documents and single values are read is a parameter (`Readers`). Whatever comes out has
passed one check: `ofValues_checked`.
-/
namespace EnvAudit

/-- The options that shape a scan. -/
structure ScanConfig where
  /-- Globs of what is left out. -/
  exclude : List Text
  /-- The most files that are scanned, if there is a limit. -/
  maxFiles : Option Int
  maxWorkers : Int
  /-- The size of the largest file that is scanned, in bytes. -/
  maxFileSize : Int
deriving DecidableEq, Repr

namespace ScanConfig

/-- The options where nothing else is said. -/
def default : ScanConfig where
  exclude := []
  maxFiles := none
  maxWorkers := 4
  maxFileSize := FileTree.defaultMaxSize

/-- A limit as data. -/
def limitData : Option Int → Data
  | some n => .int n
  | none => .null

/-- The options as data. -/
def toData (c : ScanConfig) : Data :=
  .map [(.text "exclude".toList, .list (c.exclude.map .text)),
    (.text "max_files".toList, limitData c.maxFiles),
    (.text "max_workers".toList, .int c.maxWorkers),
    (.text "max_file_size".toList, .int c.maxFileSize)]

open Checked in
/-- The options read from data. -/
def ofData (d : Data) (c : Coercion := .lenient) : Checked ScanConfig :=
  record d <|
    start ScanConfig.mk
      |>.ap (optional "exclude" default.exclude (list c c.text) d)
      |>.ap (optional "max_files" default.maxFiles (orNull (intFrom c 0)) d)
      |>.ap (optional "max_workers" default.maxWorkers (intFrom c 1) d)
      |>.ap (optional "max_file_size" default.maxFileSize (intFrom c 0) d)

/-! ## The file -/

/-- The name of the file with options. -/
def fileName : Text := ".envinspect.yml".toList

/-- How the options are read: documents, and the single values in them. -/
structure Readers where
  documents : Yaml.Reader := .strict
  values : Coercion := .lenient

/-- The entries of a document with options. A document that is malformed, or is no mapping, has none
and leaves a warning. -/
def entriesOf (path : PathName) : Except Yaml.LoadFault Data → Logged (List (Data × Data))
  | .error .malformed => do
    Logged.warn ("Ignoring unreadable config ".toList ++ path.toText)
    return []
  | .error (.ended failure) => Logged.fail failure
  | .ok (.map entries) => return entries
  | .ok d =>
    if d.isTruthy then do
      Logged.warn ("Ignoring config ".toList ++ path.toText ++
        ": expected a mapping, got ".toList ++ d.kindName)
      return []
    else return []

/-- The entries of the file with options, if there is one. -/
def readEntries (t : FileTree) (path : PathName) (reader : Yaml.Reader) :
    Logged (List (Data × Data)) := do
  if ← Logged.ofExcept (FileTree.orFail path (t.isFileAsked? path)) then
    match t.bytesOf? path with
    | .ok (some bytes) => entriesOf path (reader.read (.ofBytes bytes))
    | _ => return []
  else return []

/-! ## Putting options together -/

/-- The options while they are put together: a value for each name. -/
abbrev Values := List (Data × Data)

/-- The list without repetitions. Nothing that holds other data can be compared. -/
def distinctItems (items : List Data) : Except Failure (List Data) :=
  match items.find? fun d => !d.isKey with
  | some d => .error (.unhashable d.noKeyKind)
  | none => .ok (Data.distinct items)

/-- What an option is set to, given what it was: a list is added to a list. -/
def merged (old new : Data) : Except Failure Data :=
  match old, new with
  | .list xs, .list ys => (distinctItems (xs ++ ys)).map .list
  | _, _ => .ok new

/-- Says that a key is no option, if the key can be shown. -/
def warnOfKey (path : PathName) (key : Data) : Logged Unit :=
  if key.isShowable then
    Logged.warn ("Unknown key '".toList ++ key.shown ++ "' in ".toList ++ path.toText)
  else Logged.fail (.tooManyDigits none)

/-- Sets an option by an entry of the file. A key that is no option leaves a warning. -/
def setEntry (path : PathName) (values : Values) (entry : Data × Data) : Logged Values :=
  match Data.find? entry.1 values with
  | none => do
    warnOfKey path entry.1
    return values
  | some old => do
    let new ← Logged.ofExcept (merged old entry.2)
    return Data.insert entry.1 new values

/-- Sets the number of workers by a variable of the environment; an empty one counts as none. -/
def setWorkers (values : Values) : Option Text → Logged Values
  | none | some [] => return values
  | some t =>
    match intOfText? t with
    | some n => return Data.insert (.text "max_workers".toList) (.int n) values
    | none => do
      Logged.warn ("Ignoring ENVINSPECT_MAX_WORKERS=".toList ++ t.quoted ++
        ": not an integer".toList)
      return values

/-- The options that values stand for; values that cannot be used leave a warning. -/
def ofValues (values : Values) (c : Coercion) : Logged ScanConfig :=
  match ofData (.map values) c with
  | .ok c => return c
  | .error _ => do
    Logged.warn "Invalid configuration, using defaults".toList
    return default

/-- The default options as values. -/
def defaultValues : Values :=
  match default.toData with
  | .map entries => entries
  | _ => []

/-- The options that the entries of a file and the variable of the environment give. -/
def ofEntries (path : PathName) (entries : List (Data × Data)) (workers : Option Text)
    (c : Coercion) : Logged ScanConfig := do
  let values ← entries.foldlM (setEntry path) defaultValues
  ofValues (← setWorkers values workers) c

/-- Loads the options for a directory. `workers` is the variable of the environment that sets the
number of workers. -/
def load (t : FileTree) (root : PathName) (workers : Option Text) (readers : Readers := {}) :
    Logged ScanConfig := do
  let path := root.child fileName
  let entries ← readEntries t path readers.documents
  ofEntries path entries workers readers.values

/-- Loads the options for a directory by its name as it is handed over. Under a name that is not asked
for, or is no text, there is no file with options. -/
def loadNamed (t : FileTree) (name : RawName) (workers : Option Text) (readers : Readers := {}) :
    Logged ScanConfig :=
  match name.lookedUp with
  | .error _ => ofEntries (.ofText fileName) [] workers readers.values
  | .ok bytes =>
    match Utf8.decode bytes with
    | .ok text => load t (.ofText text) workers readers
    | .error fault =>
      let file := bytes ++ Utf8.encode ('/' :: fileName)
      if t.isTooLongUnder file fault.position then
        Logged.fail (.path .nameTooLong (FileTree.shapeOf file).toText)
      else ofEntries (.ofText fileName) [] workers readers.values

/-- What comes out of the values of options is the defaults or has passed the check. -/
theorem ofValues_checked (values : Values) (c : Coercion) :
    ∃ config, (ofValues values c).outcome = .ok config ∧
      (config = default ∨ ofData (.map values) c = .ok config) := by
  unfold ofValues
  split
  · rename_i config h
    exact ⟨config, rfl, .inr h⟩
  · exact ⟨default, rfl, .inl rfl⟩

end ScanConfig
end EnvAudit
