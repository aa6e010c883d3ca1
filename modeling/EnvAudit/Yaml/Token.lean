import EnvAudit.Yaml.Fault

/-!
# Tokens of a document

The parts of a document in the order of its text, with the starts and ends of nested blocks, which
the text shows by indentation only. The end of the list is the end of the document.
-/
namespace EnvAudit.Yaml

/-- A line that tells how to read a document. -/
inductive Directive where
  | version (major : Nat)
  | tagHandle (handle tagStart : Text)
  | other
deriving DecidableEq, Repr

/-- A part of a document. -/
inductive Token where
  | directive (d : Directive)
  | documentStart
  | documentEnd
  | blockSequenceStart
  | blockMappingStart
  | blockEnd
  | flowSequenceStart
  | flowSequenceEnd
  | flowMappingStart
  | flowMappingEnd
  | blockEntry
  | flowEntry
  | key
  | value
  | alias (name : Text)
  | anchor (name : Text)
  /-- A tag: a suffix with the handle before it, or a whole tag. -/
  | tag (handle : Option Text) (suffix : Text)
  /-- A scalar; a plain one stands without quotes. -/
  | scalar (text : Text) (plain : Bool)
  /-- What cannot be read. It is the last token. -/
  | broken (fault : Fault)
deriving DecidableEq, Repr

end EnvAudit.Yaml
