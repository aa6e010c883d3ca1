import EnvAudit.Text.Digit
import EnvAudit.Text.Blank

/-!
# Whole numbers in decimal

Writing whole numbers, and reading them by two rules: digits of any script with single underscores
between them, as in a program text, or the narrower form that a record's field admits.
-/
namespace EnvAudit

/-- The decimal digits of a number, without leading zeros. -/
def natText (n : Nat) : Text := Nat.toDigits 10 n

/-- The decimal form of a whole number; a minus sign marks a negative one. -/
def intText : Int → Text
  | .ofNat n => natText n
  | .negSucc n => '-' :: natText (n + 1)

/-- The number that a list of digits denotes in the given base. -/
def ofDigits (base : Nat) (digits : List Nat) : Nat := digits.foldl (fun n d => n * base + d) 0

/-- The digits of a numeral in which single underscores may stand between digits. -/
def digitsWithUnderscores (digit? : Char → Option Nat) : Text → Option (List Nat)
  | [] => none
  | [c] => (digit? c).map ([·])
  | c :: '_' :: rest => do return (← digit? c) :: (← digitsWithUnderscores digit? rest)
  | c :: rest => do return (← digit? c) :: (← digitsWithUnderscores digit? rest)

/-- An optional sign: whether it is a minus, and the text behind it. -/
def takeSign : Text → Bool × Text
  | '-' :: rest => (true, rest)
  | '+' :: rest => (false, rest)
  | t => (false, t)

/-- A natural number with the sign of a numeral. -/
def signed (negative : Bool) (n : Nat) : Int := if negative then -(n : Int) else n

/-- White space that may stand around a number: any but the four separators of ASCII. -/
def isMargin (c : Char) : Bool := isBlank c && !(28 ≤ c.toNat && c.toNat ≤ 31)

/-- A text without the white space that may stand around a number. -/
def stripMargin (t : Text) : Text :=
  ((t.dropWhile isMargin).reverse.dropWhile isMargin).reverse

/-- The most digits of a whole number in decimal. -/
def maxDecimalDigits : Nat := 4300

/-- Whether a whole number has no more digits than are written. -/
def isWritable (n : Int) : Bool := (natText n.natAbs).length ≤ maxDecimalDigits

/-- The message for a whole number with more digits than are read or written. How many they are is
said of a number that is read. -/
def tooManyDigitsMessage (count : Option Nat) : Text :=
  "Exceeds the limit (4300 digits) for integer string conversion".toList ++
    (match count with
      | some n => ": value has ".toList ++ natText n ++ " digits".toList
      | none => []) ++
    "; use sys.set_int_max_str_digits() to increase the limit".toList

/-- A whole number in decimal: white space around it, an optional sign, digits of any script with
single underscores between them. -/
def intOfText? (t : Text) : Option Int :=
  let (negative, digits) := takeSign (stripMargin t)
  match digitsWithUnderscores digitValue? digits with
  | some ds =>
    if maxDecimalDigits < ds.length then none else some (signed negative (ofDigits 10 ds))
  | none => none

end EnvAudit
