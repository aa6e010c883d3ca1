import EnvAudit.Text.Newline
import EnvAudit.Text.Utf8

/-!
# Texts that are read piece by piece

What a reader gets of a file whose bytes are decoded as they are needed: the text up to the first
fault, with every line end as a line feed, and the fault, which shows only when the reader comes to
it. A file that is well-formed gives its whole text: `ofBytes_of_decode`.
-/
namespace EnvAudit

/-- A text that is decoded while it is read. -/
structure TextStream where
  /-- All that can be decoded. -/
  text : Text
  /-- What ends it, unless it is the end of the file. -/
  fault : Option Utf8.Fault
deriving DecidableEq, Repr

namespace TextStream

/-- The text before a position that decodes up to there. -/
def textBefore (bytes : List UInt8) (position : Nat) : Text :=
  (Utf8.decode? (bytes.take position)).getD []

/-- The bytes of a file as a text to be read. -/
def ofBytes (bytes : List UInt8) : TextStream :=
  match Utf8.decode bytes with
  | .ok text => ⟨Text.unifyNewlines text, none⟩
  | .error fault => ⟨Text.unifyNewlines (textBefore bytes fault.position), some fault⟩

theorem ofBytes_of_decode {bytes : List UInt8} {text : Text} (h : Utf8.decode bytes = .ok text) :
    ofBytes bytes = ⟨Text.unifyNewlines text, none⟩ := by
  rw [ofBytes, h]

end TextStream
end EnvAudit
