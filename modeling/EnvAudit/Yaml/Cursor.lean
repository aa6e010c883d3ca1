import EnvAudit.Text
import EnvAudit.Yaml.Fault

/-!
# Cursors in a document

A place in a document: the text from there on, how many characters lie before it, and its line and
column. A cursor only ever moves forward.
-/
namespace EnvAudit.Yaml

/-- Whether a character ends a line. -/
def isBreak (c : Char) : Bool := c == '\n' || c == '\x85' || c == '\u2028' || c == '\u2029'

/-- What stands for the end of a document, which never holds this character itself. -/
def endMark : Char := '\x00'

/-- Whether a character ends a line or the document. -/
def endsLine (c : Char) : Bool := c == endMark || isBreak c

/-- Whether a character is a space or ends a line. -/
def isSpaceOrEnd (c : Char) : Bool := c == ' ' || endsLine c

/-- Whether a character is a space or a tab or ends a line. -/
def isBlankOrEnd (c : Char) : Bool := c == '\t' || isSpaceOrEnd c

/-- A space or a tab. -/
def isSpaceOrTab (c : Char) : Bool := c == ' ' || c == '\t'

/-- A place in a document. -/
structure Cursor where
  rest : Text
  index : Nat
  line : Nat
  column : Nat
deriving DecidableEq, Repr

namespace Cursor

/-- The start of a document. -/
def start (t : Text) : Cursor := ⟨t, 0, 0, 0⟩

/-- The character at the place. -/
def peek (c : Cursor) : Char := c.rest.headD endMark

/-- The character `n` places on. -/
def peekAt (c : Cursor) (n : Nat) : Char := (c.rest.drop n).headD endMark

/-- The place behind one character. A byte order mark takes no column. -/
def step (c : Cursor) : Cursor :=
  match c.rest with
  | [] => c
  | ch :: rest =>
    if isBreak ch then ⟨rest, c.index + 1, c.line + 1, 0⟩
    else if ch = '\uFEFF' then ⟨rest, c.index + 1, c.line, c.column⟩
    else ⟨rest, c.index + 1, c.line, c.column + 1⟩

/-- The place behind `n` characters. -/
def advance : Nat → Cursor → Cursor
  | 0, c => c
  | n + 1, c => advance n c.step

/-- The characters that pass a test, and the place behind them. -/
def span (test : Char → Bool) (c : Cursor) : Text × Cursor :=
  let run := c.rest.takeWhile test
  (run, c.advance run.length)

/-- The place behind the characters that pass a test. -/
def skip (test : Char → Bool) (c : Cursor) : Cursor := (c.span test).2

/-- The line end at the place, as it is kept, and the place behind it. -/
def takeBreak? (c : Cursor) : Option (Char × Cursor) :=
  if c.peek = '\n' ∨ c.peek = '\x85' then some ('\n', c.step)
  else if c.peek = '\u2028' ∨ c.peek = '\u2029' then some (c.peek, c.step)
  else none

/-- The place behind a line end, if there is one. -/
def skipBreak (c : Cursor) : Cursor :=
  match c.takeBreak? with
  | some (_, c) => c
  | none => c

/-- The place behind spaces and a comment. -/
def skipComment (c : Cursor) : Cursor :=
  let c := c.skip (· == ' ')
  if c.peek = '#' then c.skip (!isBreak ·) else c

/-- Whether three of a character and then a blank come next, as at a boundary of documents. -/
def isTriple (ch : Char) (c : Cursor) : Bool :=
  c.rest.take 3 == [ch, ch, ch] && isBlankOrEnd (c.peekAt 3)

/-- Whether a boundary of documents comes next. -/
def isBoundary (c : Cursor) : Bool := c.isTriple '-' || c.isTriple '.'

/-- The place behind the rest of a line that holds no more than a comment. -/
def endLine (c : Cursor) : Except Fault Cursor :=
  let c := c.skipComment
  if endsLine c.peek then .ok c.skipBreak else .error .malformed

@[simp] theorem rest_step (c : Cursor) : c.step.rest = c.rest.tail := by
  unfold step
  split
  · simp_all
  · split
    · simp_all
    · split <;> simp_all

/-- Moving on drops characters. -/
theorem rest_advance (n : Nat) (c : Cursor) : (c.advance n).rest = c.rest.drop n := by
  induction n generalizing c with
  | zero => rfl
  | succ n ih => simp [advance, ih, List.drop_tail]

/-- What passes a test and what follows make up the text. -/
theorem span_append (test : Char → Bool) (c : Cursor) :
    (c.span test).1 ++ (c.span test).2.rest = c.rest := by
  simp only [span, rest_advance]
  exact List.prefix_iff_eq_append.mp (List.takeWhile_prefix test)

end Cursor
end EnvAudit.Yaml
