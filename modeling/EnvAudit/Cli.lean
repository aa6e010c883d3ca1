import EnvAudit.Dotenv.ExampleFile
import EnvAudit.Json.Reader
import EnvAudit.RepositoryScan

/-!
# The command line

One request in JSON is answered by one object in JSON. A request names the directory to scan; the
answer is a report, with a suggestion for what version control should ignore and with the result of
making an example file, where that applies. What goes wrong is answered with an error, and the exit
code is then 1. Only input that cannot be decoded within limits, or is no object, has no answer.
-/
namespace EnvAudit.Cli

/-- What a program finds around it. -/
structure Environment where
  /-- The variable that sets the number of workers. -/
  workers : Option Text := none
  /-- Whether version control is installed. -/
  hasGit : Bool := true
  /-- Who is asked about version control. -/
  tracker : Tracker := .repository hasGit
  /-- How the file with options is read. -/
  readers : ScanConfig.Readers := {}
  /-- The deepest nesting of a request that is read. -/
  maxDepth : Nat := Json.maxDepth

/-- The answer to a request, with the files as they are afterwards. -/
structure Answer where
  exitCode : Nat
  output : Data
  files : FileTree

/-- The lines that version control should ignore where environment files were committed. -/
def gitignoreEntry : Text :=
  "\n# Environment variables\n.env\n.env.local\n.env.*.local\n.env.development.local\n".toList ++
    ".env.test.local\n.env.production.local\n".toList

/-! ## Requests -/

/-- An object from names and values. -/
def object (entries : List (String × Data)) : Data :=
  .map (entries.map fun e => (.text e.1.toList, e.2))

/-- The value of a field; one that is absent counts as nothing. -/
def fieldOr (request : Data) (name : String) : Data := (request.field? name.toList).getD .null

/-- The first of two values that counts as true, else the second. -/
def orElse (a b : Data) : Data := if a.isTruthy then a else b

/-- The directory that a request names. -/
def directoryOf (request : Data) : Data :=
  orElse (fieldOr request "path") (fieldOr request "directory")

/-- The limit on files that a request sets; a truth value counts as a number. Other values and
negative numbers are no limit. -/
def limitOf? : Data → Option (Option Int)
  | .null => some none
  | .bool b => some (some (if b then 1 else 0))
  | .int n => if n < 0 then none else some (some n)
  | _ => none

/-- A value that has to be a path name. -/
def pathNameOf : Data → Except Failure PathName
  | .text t => .ok (PathName.ofText t)
  | d => .error (.notPathName d.kindName)

/-- The globs of a configuration with those of a request, each once. -/
def globsOf (config : ScanConfig) (request : Data) : Except Failure (List Data) :=
  match fieldOr request "exclude" with
  | .list items => ScanConfig.distinctItems (config.exclude.map .text ++ items)
  | d =>
    if d.isTruthy then .error (.notList d.kindName)
    else ScanConfig.distinctItems (config.exclude.map .text)

/-- The text of a value that is one. -/
def textOf? : Data → Option Text
  | .text t => some t
  | _ => none

/-- The globs before the first value that is no text, with that value. -/
def splitGlobs (items : List Data) : List Text × Option Data :=
  let isText := fun d => (textOf? d).isSome
  ((items.takeWhile isText).filterMap textOf?, (items.dropWhile isText).head?)

/-- The globs for a scan of a directory. A value that is no text fails as soon as an entry is held
against it, which the globs before it may prevent. -/
def checkGlobs (t : FileTree) (root : PathName) (items : List Data) :
    Except Failure (List Text) :=
  match splitGlobs items with
  | (globs, none) => .ok globs
  | (globs, some d) =>
    if t.anySurvives root globs then .error (.notGlob d.kindName) else .ok globs

/-! ## Answers -/

/-- The report that a request asks for. -/
def reportFor (t : FileTree) (env : Environment) (request : Data) (limit : Option Int) :
    Logged ScanReport := do
  let p ← Logged.ofExcept (pathNameOf (directoryOf request))
  let root ← Logged.ofExcept (RepositoryScan.openRoot t p)
  let config ← ScanConfig.load t root env.workers env.readers
  let globs ← Logged.ofExcept (globsOf config request)
  let globs ← Logged.ofExcept (checkGlobs t root globs)
  let result ← RepositoryScan.scanAt t root config globs
    { maxFiles := limit, tracker := env.tracker }
  return result.report

/-- Makes the example that a request asks for. Without an environment file there is none. -/
def exampleFor (t : FileTree) (request : Data) : Except Failure (Data × FileTree) := do
  let p ← pathNameOf (directoryOf request)
  let envFile := p.child ".env".toList
  if ← FileTree.orFail envFile (t.isFile? envFile) then
    let (result, after) ← ExampleFile.create t envFile none (fieldOr request "force").isTruthy
    return (result.toData false, after)
  else return (.null, t)

/-- The output for a request, with the files as they are afterwards. -/
def outputFor (t : FileTree) (env : Environment) (request : Data) (limit : Option Int) :
    Logged (Data × FileTree) := do
  let report ← reportFor t env request limit
  let base := [("report", report.toData)] ++
    if report.summary.committedEnvFiles = 0 then []
    else [("gitignore_entry", Data.text gitignoreEntry)]
  if (fieldOr request "generate_example").isTruthy then
    let (made, after) ← Logged.ofExcept (exampleFor t request)
    return (object (base ++ [("example", made)]), after)
  else return (object base, t)

/-- The answer that something went wrong, with further entries. -/
def refusal (t : FileTree) (message : Text) (more : List (String × Data)) : Answer :=
  ⟨1, object (("error", .text message) :: more), t⟩

/-- An example of a request that names a directory. -/
def exampleRequests : Data :=
  object [("local", object [("path", .text ".".toList)])]

/-- The answer to a request. -/
def answerRequest (t : FileTree) (env : Environment) (request : Data) : Logged Answer :=
  if !(directoryOf request).isTruthy then
    return refusal t "Missing required input. Provide 'path' (local directory)".toList
      [("examples", exampleRequests)]
  else
    match limitOf? (fieldOr request "max_files") with
    | none =>
      return refusal t ("Invalid max_files '".toList ++ (fieldOr request "max_files").shown ++
        "': expected a non-negative integer".toList) []
    | some limit =>
      let result := outputFor t env request limit
      match result.outcome with
      | .ok (output, after) => ⟨result.warnings, .ok ⟨0, output, after⟩⟩
      | .error failure => ⟨result.warnings, .ok (refusal t failure.message [])⟩

/-- What was being decoded when the nesting became too deep. -/
def tooDeepContext (inList : Bool) : Text :=
  " while decoding a JSON ".toList ++ (if inList then "array" else "object").toList ++
    " from a unicode string".toList

/-- The answer to an input. -/
def answer (t : FileTree) (env : Environment) (input : Text) : Logged Answer :=
  match Json.read input env.maxDepth with
  | .error (.malformed reason position) =>
    return refusal t
      ("Invalid JSON input: ".toList ++ Json.malformedMessage input reason position) []
  | .error (.tooDeep inList) => Logged.fail (.tooDeep (tooDeepContext inList))
  | .error (.tooManyDigits count) => Logged.fail (.tooManyDigits (some count))
  | .ok (.map entries) => answerRequest t env (.map entries)
  | .ok d => Logged.fail (.notMapping d.kindName)

end EnvAudit.Cli
