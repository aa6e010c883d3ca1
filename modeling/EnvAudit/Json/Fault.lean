import EnvAudit.Number.Decimal

/-!
# What can be wrong with a JSON document

A fault names what was expected and the place, counted in characters from the start. Its message
gives the place as line and column as well.
-/
namespace EnvAudit.Json

/-- What a reader of JSON found wrong. -/
inductive Reason where
  | expectingValue
  | expectingName
  | expectingColon
  | expectingComma
  | unterminatedString
  | controlCharacter
  | badEscape
  | badUnicodeEscape
  | extraData
  | byteOrderMark
deriving DecidableEq, Repr

/-- The words for a reason. -/
def Reason.message : Reason → Text
  | .expectingValue => "Expecting value".toList
  | .expectingName => "Expecting property name enclosed in double quotes".toList
  | .expectingColon => "Expecting ':' delimiter".toList
  | .expectingComma => "Expecting ',' delimiter".toList
  | .unterminatedString => "Unterminated string starting at".toList
  | .controlCharacter => "Invalid control character at".toList
  | .badEscape => "Invalid \\escape".toList
  | .badUnicodeEscape => "Invalid \\uXXXX escape".toList
  | .extraData => "Extra data".toList
  | .byteOrderMark => "Unexpected UTF-8 BOM (decode using utf-8-sig)".toList

/-- Why a document was not read. -/
inductive Fault where
  /-- The document is malformed at a position. -/
  | malformed (reason : Reason) (position : Nat)
  /-- Lists and objects are nested too deeply; whether a list was the last straw. -/
  | tooDeep (inList : Bool)
  /-- A whole number has more digits than are read. -/
  | tooManyDigits (count : Nat)
deriving DecidableEq, Repr

/-- The line of a position, from 1: one more than the line feeds before it. -/
def lineAt (doc : Text) (position : Nat) : Nat := (doc.take position).count '\n' + 1

/-- The column of a position, from 1, counted from the line feed before it. -/
def columnAt (doc : Text) (position : Nat) : Nat :=
  ((doc.take position).reverse.takeWhile (· != '\n')).length + 1

/-- The message for a malformed document. -/
def malformedMessage (doc : Text) (reason : Reason) (position : Nat) : Text :=
  reason.message ++ ": line ".toList ++ natText (lineAt doc position) ++ " column ".toList ++
    natText (columnAt doc position) ++ " (char ".toList ++ natText position ++ ")".toList

end EnvAudit.Json
