import EnvAudit.Pattern.CharClass

/-!
# Patterns

The abstract form of a search pattern: characters, sequence, choice, repetition, one capture group,
and conditions on the neighbourhood of a place. Places are zippers into a line, so that a pattern
can look back as well as ahead.
-/
namespace EnvAudit

/-- A condition on a place that consumes nothing. -/
inductive Anchor where
  /-- Before the first character. -/
  | textStart
  /-- Before the first character or after a line feed. -/
  | lineStart
  /-- After the last character. -/
  | textEnd
  /-- After the last character or before a line feed that ends the text. -/
  | lastLineEnd
  /-- After the last character or before a line feed. -/
  | lineEnd
  /-- Between a word character and another character, or an end of the text. -/
  | wordEdge
  /-- Anywhere but at a word edge. -/
  | notWordEdge
deriving DecidableEq, Repr

/-- A search pattern with at most one capture group. -/
inductive Pattern where
  /-- Matches the empty text. -/
  | empty
  /-- One character of a class. -/
  | one (cls : CharClass)
  | seq (first second : Pattern)
  /-- The first choice is preferred. -/
  | alt (first second : Pattern)
  /-- From `lo` to `hi` repetitions, without an upper bound if `hi` is absent; many are preferred
  if `greedy`, few if not. -/
  | many (lo : Nat) (hi : Option Nat) (greedy : Bool) (body : Pattern)
  /-- Captures what the body matches. -/
  | group (body : Pattern)
  /-- What the group captured, once more. -/
  | again (ignoreCase : Bool)
  | anchor (a : Anchor)
  /-- Whether the body matches from here (does not, if negated), consuming nothing. -/
  | ahead (negated : Bool) (body : Pattern)
  /-- Whether the body matches from `width` characters back (does not, if negated). -/
  | behind (negated : Bool) (width : Nat) (body : Pattern)
  /-- Only the body's preferred match counts. -/
  | atomic (body : Pattern)
  /-- Chooses by whether the group has captured. -/
  | ifGroup (yes no : Pattern)
deriving Repr

namespace Pattern

/-- The patterns one after another. -/
def seqs : List Pattern → Pattern
  | [] => .empty
  | [p] => p
  | p :: ps => .seq p (seqs ps)

/-- The patterns as choices, the first preferred. -/
def alts : List Pattern → Pattern
  | [] => .empty
  | [p] => p
  | p :: ps => .alt p (alts ps)

/-- The characters of a text one after another. -/
def literal (t : Text) : Pattern := seqs (t.map fun c => .one (.single c))

/-- One character of the given items. -/
def oneOf (items : List ClassItem) : Pattern := .one { items := items }

/-- One character outside the given items. -/
def noneOf (items : List ClassItem) : Pattern := .one { items := items, negated := true }

/-- Exactly `n` repetitions. -/
def times (n : Nat) (p : Pattern) : Pattern := .many n (some n) true p

/-- At least `n` repetitions, as many as possible. -/
def atLeast (n : Nat) (p : Pattern) : Pattern := .many n none true p

/-- At most one repetition, preferably one. -/
def optional (p : Pattern) : Pattern := .many 0 (some 1) true p

/-- The pattern without regard to case. -/
def ignoringCase : Pattern → Pattern
  | .empty => .empty
  | .one cls => .one { cls with ignoreCase := true }
  | .seq p q => .seq p.ignoringCase q.ignoringCase
  | .alt p q => .alt p.ignoringCase q.ignoringCase
  | .many lo hi greedy p => .many lo hi greedy p.ignoringCase
  | .group p => .group p.ignoringCase
  | .again _ => .again true
  | .anchor a => .anchor a
  | .ahead negated p => .ahead negated p.ignoringCase
  | .behind negated width p => .behind negated width p.ignoringCase
  | .atomic p => .atomic p.ignoringCase
  | .ifGroup p q => .ifGroup p.ignoringCase q.ignoringCase

end Pattern

/-- A place in a line: what stands before it, nearest character first, what stands after it, and
what the group captured on the way here. -/
structure Place where
  before : Text
  after : Text
  captured : Option Text := none
deriving DecidableEq, Repr

namespace Place

/-- The place at the start of a line. -/
def start (line : Text) : Place := { before := [], after := line }

/-- The number of characters before the place. -/
def column (s : Place) : Nat := s.before.length

/-- The place one character on. -/
def next (s : Place) : Place :=
  match s.after with
  | [] => s
  | c :: rest => { s with before := c :: s.before, after := rest }

/-- The place one character back. -/
def back (s : Place) : Place :=
  match s.before with
  | [] => s
  | c :: rest => { s with before := rest, after := c :: s.after }

/-- The place `n` characters back, if there are as many. -/
def back? : Nat → Place → Option Place
  | 0, s => some s
  | n + 1, s => if s.before.isEmpty then none else back? n s.back

/-- The text from a place to a later one of the same line. -/
def textTo (s e : Place) : Text := s.after.take (s.after.length - e.after.length)

/-- Whether the character before or after is a word character. -/
def isWordEdge (s : Place) : Bool :=
  (s.before.head?.any isWordChar) != (s.after.head?.any isWordChar)

end Place

/-- Whether the condition holds at the place. -/
def Anchor.holds : Anchor → Place → Bool
  | .textStart, s => s.before.isEmpty
  | .lineStart, s => s.before.head?.all (· == '\n')
  | .textEnd, s => s.after.isEmpty
  | .lastLineEnd, s => s.after.isEmpty || s.after == ['\n']
  | .lineEnd, s => s.after.head?.all (· == '\n')
  | .wordEdge, s => s.isWordEdge
  | .notWordEdge, s => !s.isWordEdge

end EnvAudit
