import EnvAudit.Number.Decimal
import EnvAudit.Git.Pathspec

/-!
# Listings of names

How names in the index are printed: as they are seen from the directory of the question, each on a
line of its own. A name with bytes that might not show is printed in quotes.
-/
namespace EnvAudit.Git

/-- The parts of a name as they are seen from a directory: up to where the two part, and down. -/
def seenFrom : (dir name : List Text) → List Text
  | d :: dir, n :: name =>
    if d = n ∧ name ≠ [] then seenFrom dir name
    else (d :: dir).map (fun _ => ['.', '.']) ++ n :: name
  | dir, name => dir.map (fun _ => ['.', '.']) ++ name

/-- Whether a byte shows as it is. -/
def showsPlainly (b : UInt8) : Bool :=
  32 ≤ b && b < 127 && b != byteOf '"' && b != byteOf '\\'

/-- A byte as three octal digits. -/
def octalText (b : UInt8) : Text :=
  [b.toNat / 64, b.toNat / 8 % 8, b.toNat % 8].map Nat.digitChar

/-- The letters for bytes that have one behind a backslash. -/
def escapeLetters : List (UInt8 × Char) :=
  [(7, 'a'), (8, 'b'), (9, 't'), (10, 'n'), (11, 'v'), (12, 'f'), (13, 'r'), (34, '"'), (92, '\\')]

/-- A byte inside quotes. -/
def quotedByte (b : UInt8) : Text :=
  if showsPlainly b then [Char.ofNat b.toNat]
  else '\\' :: match escapeLetters.find? (·.1 = b) with
    | some (_, c) => [c]
    | none => octalText b

/-- A name as it is printed, in quotes if some of it might not show. -/
def printedName (name : Text) : Text :=
  let bytes := Utf8.encode name
  if bytes.all showsPlainly then name else '"' :: bytes.flatMap quotedByte ++ ['"']

/-- A name in the index as it is printed for a question that is asked in a directory. -/
def shownName (dir : List Text) (name : Text) : Text :=
  printedName (Text.join ['/'] (seenFrom dir (Text.splitOn '/' name)))

end EnvAudit.Git
