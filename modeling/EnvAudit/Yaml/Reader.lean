import EnvAudit.Failure
import EnvAudit.Text.Stream
import EnvAudit.Yaml.Keys

/-!
# Readers of documents

Files are read by a `Reader`, of which no more is known than what its fields say: what it reads of an
empty file, and that a mapping has each key once. What else is relied on is said where it is:
`Reader.AsksFirst`. Main statement: `Reader.asksFirst_strict`, the reader of the program, which decodes
the whole file before it looks at the document, does so.
-/
namespace EnvAudit.Yaml

/-- Why a file has no document. -/
inductive LoadFault where
  /-- What is in the file is no document. -/
  | malformed
  /-- Reading ended in a failure. -/
  | ended (failure : Failure)
deriving DecidableEq, Repr

/-- A way to read documents. -/
structure Reader where
  read : TextStream → Except LoadFault Data
  /-- The entries of a mapping have different keys. -/
  keysDistinct : ∀ s entries, read s = .ok (.map entries) → Data.KeysDistinct entries
  /-- An empty file stands for nothing. -/
  read_empty : read ⟨[], none⟩ = .ok .null

namespace Reader

/-- How many characters are asked for at a time. -/
def pieceLength : Nat := 4096

/-- Whether a reader asks for a piece of the text before it looks at any of it, so that a fault in the
first piece comes before all that may be wrong with the document. -/
def AsksFirst (r : Reader) : Prop :=
  ∀ text fault, text.length < pieceLength →
    ∃ shown, r.read ⟨text, some fault⟩ = .error (.ended (.notText shown))

/-! ## The strict reader -/

/-- A fault as it is shown: bytes that are missing at the end of a file are asked for in a last piece
of their own. -/
def asLastPiece (f : Utf8.Fault) : Utf8.Fault :=
  if f.reason = .unexpectedEnd then { f with position := 0 } else f

/-- Reads a document from a text that has to be free of faults. -/
def readStrict (s : TextStream) : Except LoadFault Data :=
  match s.fault with
  | some fault => .error (.ended (.notText (asLastPiece fault)))
  | none =>
    match Yaml.read s.text with
    | .ok d => .ok d
    | .error .malformed => .error .malformed
    | .error (.value fault) => .error (.ended (.badValue fault))

theorem readStrict_eq_ok_iff {s : TextStream} {d : Data} :
    readStrict s = .ok d ↔ s.fault = none ∧ Yaml.read s.text = .ok d := by
  unfold readStrict
  cases s.fault with
  | some fault => simp
  | none =>
    cases Yaml.read s.text with
    | ok d' => simp
    | error fault => cases fault <;> simp

/-- The reader that decodes the whole file first. -/
def strict : Reader where
  read := readStrict
  keysDistinct _ _ h := keysDistinct_of_read (readStrict_eq_ok_iff.mp h).2
  read_empty := rfl

theorem asksFirst_strict : strict.AsksFirst := fun _ fault _ => ⟨asLastPiece fault, rfl⟩

end Reader
end EnvAudit.Yaml
