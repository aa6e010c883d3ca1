import EnvAudit.Text.Hex
import EnvAudit.Text.Utf8
import EnvAudit.Yaml.Token
import EnvAudit.Yaml.Cursor

/-!
# Reading names

The names of anchors, tags and directives: what stands before a node or a document and says how to
read it.
-/
namespace EnvAudit.Yaml

/-- Whether a character is an ASCII letter or digit. -/
def isWordChar (c : Char) : Bool :=
  ('0' ≤ c && c ≤ '9') || ('A' ≤ c && c ≤ 'Z') || ('a' ≤ c && c ≤ 'z')

/-- A character of the name of an anchor, a directive or a tag's handle. -/
def isNameChar (c : Char) : Bool := isWordChar c || c == '-' || c == '_'

/-- A character of a tag; a percent sign starts a character that is given by its bytes. -/
def isTagChar (c : Char) : Bool := isWordChar c || "-;/?:@&=+$,_.!~*'()[]%".toList.contains c

/-- A character that may follow the name of an anchor. -/
def mayFollowAnchor (c : Char) : Bool := isBlankOrEnd c || "?:,]\x7d%@\x60".toList.contains c

/-- Reads the name of an anchor, with the cursor at its mark. -/
def readAnchorName (c : Cursor) : Except Fault (Text × Cursor) :=
  let (name, c) := c.step.span isNameChar
  if name.isEmpty || !mayFollowAnchor c.peek then .error .malformed else .ok (name, c)

/-! ## Tags -/

/-- Bytes that are given in hexadecimal behind percent signs, and the place behind them. -/
def escapedBytes : Nat → Cursor → Except Fault (List UInt8 × Cursor)
  | 0, c => .ok ([], c)
  | fuel + 1, c =>
    if c.peek = '%' then
      match hexValue? (c.peekAt 1), hexValue? (c.peekAt 2) with
      | some a, some b => do
        let (bytes, c) ← escapedBytes fuel (c.advance 3)
        return (UInt8.ofNat (a * 16 + b) :: bytes, c)
      | _, _ => .error .malformed
    else .ok ([], c)

/-- Reads the rest of a tag; `done` is its text so far. -/
def tagFrom : Nat → Text → Cursor → Except Fault (Text × Cursor)
  | 0, done, c => .ok (done, c)
  | fuel + 1, done, c =>
    if c.peek = '%' then do
      let (bytes, c) ← escapedBytes c.rest.length c
      match Utf8.decode? bytes with
      | some t => tagFrom fuel (done ++ t) c
      | none => .error .malformed
    else
      let (run, c) := c.span fun ch => isTagChar ch && ch != '%'
      if run.isEmpty then .ok (done, c) else tagFrom fuel (done ++ run) c

/-- Reads the suffix of a tag, which is not empty. -/
def readTagSuffix (c : Cursor) : Except Fault (Text × Cursor) :=
  if isTagChar c.peek then tagFrom c.rest.length [] c else .error .malformed

/-- Reads the handle of a tag: an exclamation mark, alone or around a name. -/
def readTagHandle (c : Cursor) : Except Fault (Text × Cursor) :=
  if c.peek ≠ '!' then .error .malformed
  else if c.peekAt 1 = ' ' then .ok (['!'], c.step)
  else
    let (name, after) := c.step.span isNameChar
    if after.peek = '!' then .ok ('!' :: name ++ ['!'], after.step) else .error .malformed

/-- Whether the tag at a place has a handle with a second exclamation mark. -/
def hasNamedHandle (c : Cursor) : Bool :=
  (c.step.span fun ch => ch != '!' && !isSpaceOrEnd ch).2.peek == '!'

/-- Reads a tag, with the cursor at its mark. -/
def readTag (c : Cursor) : Except Fault (Token × Cursor) := do
  let next := c.peekAt 1
  let (tag, c) : Token × Cursor ←
    if next = '<' then do
      let (suffix, c) ← readTagSuffix (c.advance 2)
      if c.peek ≠ '>' then throw .malformed
      pure (.tag none suffix, c.step)
    else if isBlankOrEnd next then pure (.tag none ['!'], c.step)
    else do
      let (handle, c) : Text × Cursor ←
        if hasNamedHandle c then readTagHandle c else pure (['!'], c.step)
      let (suffix, c) ← readTagSuffix c
      pure (.tag (some handle) suffix, c)
  if isSpaceOrEnd c.peek then return (tag, c) else throw .malformed

/-! ## Directives -/

/-- Reads a number in a directive. -/
def readVersionPart (c : Cursor) : Except Fault (Nat × Cursor) :=
  let (digits, c) := c.span fun ch => '0' ≤ ch && ch ≤ '9'
  if digits.isEmpty then .error .malformed
  else .ok (ofDigits 10 (digits.map fun ch => ch.toNat - '0'.toNat), c)

/-- Reads a version: two numbers with a point between. -/
def readVersion (c : Cursor) : Except Fault (Directive × Cursor) := do
  let (major, c) ← readVersionPart (c.skip (· == ' '))
  if c.peek ≠ '.' then throw .malformed
  let (_, c) ← readVersionPart c.step
  if isSpaceOrEnd c.peek then return (.version major, c) else throw .malformed

/-- Reads a handle and what tags with it start with. -/
def readHandleDirective (c : Cursor) : Except Fault (Directive × Cursor) := do
  let (handle, c) ← readTagHandle (c.skip (· == ' '))
  if c.peek ≠ ' ' then throw .malformed
  let (tagStart, c) ← readTagSuffix (c.skip (· == ' '))
  if isSpaceOrEnd c.peek then return (.tagHandle handle tagStart, c) else throw .malformed

/-- Reads a directive, with the cursor at its mark. -/
def readDirective (c : Cursor) : Except Fault (Token × Cursor) := do
  let (name, c) := c.step.span isNameChar
  if name.isEmpty || !isSpaceOrEnd c.peek then throw .malformed
  let (d, c) : Directive × Cursor ←
    if name = "YAML".toList then readVersion c
    else if name = "TAG".toList then readHandleDirective c
    else pure (.other, c.skip (!isBreak ·))
  return (.directive d, ← c.endLine)

end EnvAudit.Yaml
