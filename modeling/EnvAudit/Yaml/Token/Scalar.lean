import EnvAudit.Text.Hex
import EnvAudit.Yaml.Cursor

/-!
# Reading scalars

The three forms of a scalar: plain, in quotes, and in a block of its own. Within a scalar a single
line end is a space and further ones are kept, except in a literal block, which keeps all.
-/
namespace EnvAudit.Yaml

/-- The text that stands for line ends inside a folded scalar: the first is a space unless others
follow it. -/
def foldBreaks (first : Char) (others : Text) : Text :=
  if first ≠ '\n' then first :: others else if others.isEmpty then [' '] else others

/-! ## Plain scalars -/

/-- The characters that have a meaning of their own inside brackets. -/
def isFlowMark (c : Char) : Bool := ",?[]\x7b\x7d".toList.contains c

/-- Whether a plain scalar ends before a character with the given rest behind it. -/
def endsPlain (inFlow : Bool) (c : Char) (rest : Text) : Bool :=
  let next := rest.headD endMark
  isBlankOrEnd c ||
    (c == ':' && (isBlankOrEnd next || (inFlow && next != '?' && isFlowMark next))) ||
    (inFlow && isFlowMark c)

/-- The length of the run of a plain scalar at the start of a text. -/
def plainLength (inFlow : Bool) : Nat → Text → Nat
  | n, [] => n
  | n, c :: rest => if endsPlain inFlow c rest then n else plainLength inFlow (n + 1) rest

/-- Line ends and spaces behind the first line end of a gap. Gives the further line ends, or none at
a boundary of documents; the number of characters left bounds the steps. -/
def plainBreaks : Nat → Text → Cursor → Option Text × Cursor
  | 0, done, c => (some done.reverse, c)
  | fuel + 1, done, c =>
    if c.peek = ' ' then plainBreaks fuel done c.step
    else
      match c.takeBreak? with
      | some (ch, c) => if c.isBoundary then (none, c) else plainBreaks fuel (ch :: done) c
      | none => (some done.reverse, c)

/-- A gap inside a plain scalar. -/
structure PlainGap where
  /-- The text that the gap stands for if the scalar goes on; empty if it cannot. -/
  text : Text
  /-- Whether the gap holds a line end. -/
  newLine : Bool

/-- The gap at a place, and the place behind it. -/
def plainGap (c : Cursor) : PlainGap × Cursor :=
  let (spaces, c) := c.span (· == ' ')
  match c.takeBreak? with
  | some (first, c) =>
    if c.isBoundary then (⟨[], true⟩, c)
    else
      match plainBreaks c.rest.length [] c with
      | (some others, c) => (⟨foldBreaks first others, true⟩, c)
      | (none, c) => (⟨[], true⟩, c)
  | none => (⟨spaces, false⟩, c)

/-- A scalar that was read. -/
structure PlainScalar where
  text : Text
  /-- Whether the last gap holds a line end, so that a key may follow. -/
  endsInNewLine : Bool

/-- Reads a plain scalar from a place where it may go on. `done` is its text so far, the last
character first, and `gap` the gap before the place. -/
def plainFrom (inFlow : Bool) (minColumn : Nat) :
    Nat → Text → PlainGap → Cursor → PlainScalar × Cursor
  | 0, done, gap, c => (⟨done.reverse, gap.newLine⟩, c)
  | fuel + 1, done, gap, c =>
    let n := plainLength inFlow 0 c.rest
    if c.peek = '#' ∨ n = 0 then (⟨done.reverse, gap.newLine⟩, c)
    else
      let done := (c.rest.take n).reverse ++ (gap.text.reverse ++ done)
      let (gap, c) := plainGap (c.advance n)
      if gap.text.isEmpty || c.peek == '#' || (!inFlow && c.column < minColumn) then
        (⟨done.reverse, gap.newLine⟩, c)
      else plainFrom inFlow minColumn fuel done gap c

/-- Reads a plain scalar. Outside of brackets its further lines start at the given column or
behind it. -/
def readPlain (inFlow : Bool) (minColumn : Nat) (c : Cursor) : PlainScalar × Cursor :=
  plainFrom inFlow minColumn c.rest.length [] ⟨[], false⟩ c

/-! ## Scalars in quotes -/

/-- What a letter behind a backslash stands for. -/
def escapes : List (Char × Char) :=
  [('0', '\x00'), ('a', '\x07'), ('b', '\x08'), ('t', '\t'), ('\t', '\t'), ('n', '\n'),
    ('v', '\x0b'), ('f', '\x0c'), ('r', '\r'), ('e', '\x1b'), (' ', ' '), ('"', '"'),
    ('\\', '\\'), ('/', '/'), ('N', '\x85'), ('_', '\xa0'), ('L', '\u2028'), ('P', '\u2029')]

/-- How many digits of a code point follow a letter behind a backslash. -/
def codeLengths : List (Char × Nat) := [('x', 2), ('u', 4), ('U', 8)]

/-- The number that so many hexadecimal digits at the start of a text write. -/
def hexNumber? (n : Nat) (t : Text) : Option Nat :=
  let digits := t.take n
  if digits.length < n then none
  else (digits.mapM hexValue?).map fun ds => ds.foldl (fun m d => m * 16 + d) 0

/-- Line ends and blanks inside quotes, from the start of a line on. A boundary of documents is not
allowed there. -/
def quotedBreaks : Nat → Text → Cursor → Except Fault (Text × Cursor)
  | 0, done, c => .ok (done.reverse, c)
  | fuel + 1, done, c =>
    if c.isBoundary then .error .malformed
    else
      let c := c.skip isSpaceOrTab
      match c.takeBreak? with
      | some (ch, c) => quotedBreaks fuel (ch :: done) c
      | none => .ok (done.reverse, c)

/-- Reads the blanks and line ends at a place inside quotes. -/
def quotedGap (c : Cursor) : Except Fault (Text × Cursor) :=
  let (blanks, c) := c.span isSpaceOrTab
  match c.takeBreak? with
  | some (first, c) => do
    let (others, c) ← quotedBreaks (c.rest.length + 1) [] c
    return (foldBreaks first others, c)
  | none => .ok (blanks, c)

/-- Reads what a backslash starts, from behind it on. -/
def readEscape (c : Cursor) : Except Fault (Text × Cursor) :=
  match escapes.find? (·.1 = c.peek), codeLengths.find? (·.1 = c.peek), c.takeBreak? with
  | some (_, ch), _, _ => .ok ([ch], c.step)
  | none, some (_, n), _ =>
    match hexNumber? n c.step.rest with
    | none => .error .malformed
    | some code =>
      if 0x10FFFF < code then .error (.value (.noSuchChar code))
      else
        let ch := if 0xD800 ≤ code && code ≤ 0xDFFF then '\uFFFD' else Char.ofNat code
        .ok ([ch], c.step.advance n)
  | none, none, some (_, c) => quotedBreaks (c.rest.length + 1) [] c
  | none, none, none => .error .malformed

/-- Reads a scalar in quotes from a place inside them; `done` is its text so far, the last character
first. -/
def quotedFrom (quote : Char) : Nat → Text → Cursor → Except Fault (Text × Cursor)
  | 0, _, _ => .error .malformed
  | fuel + 1, done, c =>
    let double := quote == '"'
    if c.rest.isEmpty then .error .malformed
    else if c.peek = quote then
      if !double && c.peekAt 1 = quote then quotedFrom quote fuel (quote :: done) (c.advance 2)
      else .ok (done.reverse, c.step)
    else if isBlankOrEnd c.peek then
      match quotedGap c with
      | .error f => .error f
      | .ok (gap, c) =>
        if c.rest.isEmpty then .error .malformed
        else quotedFrom quote fuel (gap.reverse ++ done) c
    else if double && c.peek == '\\' then
      match readEscape c.step with
      | .error f => .error f
      | .ok (text, c) => quotedFrom quote fuel (text.reverse ++ done) c
    else quotedFrom quote fuel (c.peek :: done) c.step

/-- Reads a scalar in quotes, with the cursor at the opening one. -/
def readQuoted (c : Cursor) : Except Fault (Text × Cursor) :=
  quotedFrom c.peek (c.rest.length + 1) [] c.step

/-! ## Block scalars -/

/-- What becomes of the line ends behind a block. -/
inductive Chomping where
  /-- One is kept. -/
  | clip
  /-- None is kept. -/
  | strip
  /-- All are kept. -/
  | keep
deriving DecidableEq, Repr

/-- The head of a block scalar. -/
structure BlockHead where
  chomping : Chomping
  /-- How much deeper than its surroundings the block is, if that is given. -/
  depth : Option Nat
deriving DecidableEq, Repr

/-- How a sign at the head of a block scalar chomps. -/
def chompingOf? (c : Char) : Option Chomping :=
  if c = '+' then some .keep else if c = '-' then some .strip else none

/-- The depth that a digit gives; zero is none. -/
def depthOf? (c : Char) : Option Nat :=
  if '0'.toNat ≤ c.toNat && c.toNat ≤ '9'.toNat then some (c.toNat - '0'.toNat) else none

/-- Reads the signs at the head of a block scalar, in either order. -/
def readBlockHead (c : Cursor) : Except Fault (BlockHead × Cursor) := do
  let (head, c) : BlockHead × Cursor :=
    match chompingOf? c.peek, depthOf? c.peek with
    | some chomping, _ =>
      match depthOf? (c.peekAt 1) with
      | some d => (⟨chomping, some d⟩, c.advance 2)
      | none => (⟨chomping, none⟩, c.step)
    | none, some d =>
      match chompingOf? (c.peekAt 1) with
      | some chomping => (⟨chomping, some d⟩, c.advance 2)
      | none => (⟨.clip, some d⟩, c.step)
    | none, none => (⟨.clip, none⟩, c)
  if head.depth = some 0 ∨ !isSpaceOrEnd c.peek then throw .malformed
  return (head, ← c.endLine)

/-- The place at a column, or behind the spaces before it. -/
def skipIndent (column : Nat) (c : Cursor) : Cursor :=
  c.advance (min (column - c.column) (c.rest.takeWhile (· == ' ')).length)

/-- Line ends before a line of a block with a known column. -/
def blockBreaks (column : Nat) : Nat → Text → Cursor → Text × Cursor
  | 0, done, c => (done.reverse, c)
  | fuel + 1, done, c =>
    let c := skipIndent column c
    match c.takeBreak? with
    | some (ch, c) => blockBreaks column fuel (ch :: done) c
    | none => (done.reverse, c)

/-- Line ends before the first line of a block; the greatest column among the spaces gives the
column of the block. -/
def blockStart : Nat → Text → Nat → Cursor → Text × Nat × Cursor
  | 0, done, column, c => (done.reverse, column, c)
  | fuel + 1, done, column, c =>
    if c.peek = ' ' then blockStart fuel done (max column c.step.column) c.step
    else
      match c.takeBreak? with
      | some (ch, c) => blockStart fuel (ch :: done) column c
      | none => (done.reverse, column, c)

/-- The lines of a block from a place on: `breaks` are the line ends before it. Gives the text, the
last character first, the last line end, if there is one, and the line ends behind it. -/
def blockLines (folded : Bool) (column : Nat) :
    Nat → Text → Text → Cursor → Text × Text × Text × Cursor
  | 0, done, breaks, c => (done, [], breaks, c)
  | fuel + 1, done, breaks, c =>
    let isIndented := isSpaceOrTab c.peek
    let (line, c) := c.span (!isBreak ·)
    let done := line.reverse ++ (breaks.reverse ++ done)
    let (lineEnd, c) := match c.takeBreak? with
      | some (ch, c) => ([ch], c)
      | none => ([], c)
    let (breaks, c) := blockBreaks column (c.rest.length + 1) [] c
    if c.column = column ∧ !c.rest.isEmpty then
      let between : Text :=
        if folded ∧ lineEnd = ['\n'] ∧ !isIndented ∧ !isSpaceOrTab c.peek then
          if breaks.isEmpty then [' '] else []
        else lineEnd
      blockLines folded column fuel (between ++ done) breaks c
    else (done, lineEnd, breaks, c)

/-- Reads a block scalar, with the cursor behind its mark. The surroundings are at a column, if
there are any. -/
def readBlock (folded : Bool) (outer : Option Nat) (c : Cursor) :
    Except Fault (Text × Cursor) := do
  let (head, c) ← readBlockHead c
  let least := max 1 (match outer with
    | some n => n + 1
    | none => 0)
  let (breaks, column, c) : Text × Nat × Cursor :=
    match head.depth with
    | some d =>
      let (breaks, c) := blockBreaks (least + d - 1) (c.rest.length + 1) [] c
      (breaks, least + d - 1, c)
    | none =>
      let (breaks, column, c) := blockStart (c.rest.length + 1) [] 0 c
      (breaks, max least column, c)
  let (done, lineEnd, breaks, c) : Text × Text × Text × Cursor :=
    if c.column = column ∧ !c.rest.isEmpty then
      blockLines folded column (c.rest.length + 1) [] breaks c
    else ([], [], breaks, c)
  let tail := match head.chomping with
    | .strip => []
    | .clip => lineEnd
    | .keep => lineEnd ++ breaks
  return (done.reverse ++ tail, c)

end EnvAudit.Yaml
