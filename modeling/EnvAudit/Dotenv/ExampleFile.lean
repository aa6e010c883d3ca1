import EnvAudit.Dotenv.Example
import EnvAudit.FileTree.Access
import EnvAudit.Text.Newline

/-!
# Writing example files

An example file is made beside its environment file or wherever it is asked for. Everything that can
go wrong is found out before anything is written, and a file that is there already is kept unless it
may be replaced.
-/
namespace EnvAudit

/-- What came of making an example file. -/
structure ExampleResult where
  success : Bool
  existed : Bool
  message : Text
  envPath : Text
  examplePath : Text
  keysFound : Int
  content : Text
deriving DecidableEq, Repr

namespace ExampleResult

/-- A result as data, with the content of the example or without. -/
def toData (r : ExampleResult) (withContent : Bool) : Data :=
  .map ([(.text "success".toList, .bool r.success), (.text "existed".toList, .bool r.existed),
    (.text "message".toList, .text r.message), (.text "env_path".toList, .text r.envPath),
    (.text "example_path".toList, .text r.examplePath),
    (.text "keys_found".toList, .int r.keysFound)] ++
    if withContent then [(.text "content".toList, .text r.content)] else [])

open Checked in
/-- A result read from data. -/
def ofData (d : Data) (c : Coercion := .lenient) : Checked ExampleResult :=
  record d <|
    start ExampleResult.mk
      |>.ap (required "success" c.bool d)
      |>.ap (optional "existed" false c.bool d)
      |>.ap (optional "message" [] c.text d)
      |>.ap (optional "env_path" [] c.text d)
      |>.ap (optional "example_path" [] c.text d)
      |>.ap (optional "keys_found" 0 c.int d)
      |>.ap (optional "content" [] c.text d)

end ExampleResult

namespace ExampleFile

/-- The name of an example file that is not named otherwise. -/
def defaultName : Text := ".env.example".toList

/-- Where the example of an environment file goes. -/
def outputFor (env : PathName) (output : Option PathName) : PathName :=
  output.getD (env.parent.child defaultName)

/-- What is found out before anything is read or written: fails unless the environment file is a
file, the output is another one, and the directory for it is there. Gives whether the output is
there already. -/
def check (t : FileTree) (env output : PathName) : Except Failure Bool := do
  unless ← FileTree.orFail env (t.isFile? env) do
    throw (.envFileMissing env.toText)
  let realOutput ← t.resolve output
  let realEnv ← t.resolve env
  if realOutput = realEnv then throw (.outputIsSource output.toText)
  unless ← FileTree.orFail output.parent (t.isDir? output.parent) do
    throw (.outputDirectoryMissing output.parent.toText)
  FileTree.orFail output (t.exists? output)

/-- The entries of an environment file that is to have an example with a given name. -/
def readEntries (t : FileTree) (env : PathName) (exampleName : Text) :
    Except Failure (List EnvEntry) :=
  match t.bytesOf? env with
  | .error p => .error (.path p env.toText)
  | .ok none => .error (.envFileMissing env.toText)
  | .ok (some bytes) =>
    match Utf8.decode bytes with
    | .error fault => .error (.sourceNotText exampleName env.toText fault)
    | .ok content => .ok (EnvEntry.parse (Text.unifyNewlines content))

/-- The result where an example is there already and is kept. -/
def kept (env output : PathName) : ExampleResult where
  success := false
  existed := true
  message := output.name ++ " already exists. Use force to overwrite.".toList
  envPath := env.toText
  examplePath := output.toText
  keysFound := 0
  content := []

/-- The result where an example was written. -/
def written (env output : PathName) (entries : List EnvEntry) : ExampleResult where
  success := true
  existed := false
  message := "Created ".toList ++ output.toText
  envPath := env.toText
  examplePath := output.toText
  keysFound := entries.countP (·.isVariable)
  content := EnvEntry.exampleText entries

/-- Makes the example of an environment file. -/
def make (env : PathName) (output : Option PathName) (force : Bool) : Changing ExampleResult := do
  let output := outputFor env output
  let isThere ← Changing.ask (check · env output)
  if isThere && !force then return kept env output
  let entries ← Changing.ask (readEntries · env output.name)
  Changing.writeFile output (Utf8.encode (EnvEntry.exampleText entries))
  return written env output entries

/-- The result of making an example, and the files as they are afterwards. -/
def create (t : FileTree) (env : PathName) (output : Option PathName) (force : Bool) :
    Except Failure (ExampleResult × FileTree) :=
  match make env output force t with
  | ⟨.ok r, after⟩ => .ok (r, after)
  | ⟨.error e, _⟩ => .error e

end ExampleFile
end EnvAudit
