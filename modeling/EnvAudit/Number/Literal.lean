import EnvAudit.Number.Binary64
import EnvAudit.Text.Hex
import EnvAudit.Text.Lowercase

/-!
# Numbers in other spellings

Whole numbers in base two, eight, ten or sixteen, floating-point numbers in decimal, and numbers
whose places are counted by sixties, as times are written.
-/
namespace EnvAudit

/-- The value of a digit in a base: a decimal digit of any script, or a letter. -/
def digitIn? (base : Nat) (c : Char) : Option Nat :=
  match digitValue? c with
  | some v => if v < base then some v else none
  | none =>
    match hexValue? c with
    | some v => if v < base then some v else none
    | none => none

/-- The letter that marks a base behind a zero. -/
def baseMark? (base : Nat) : Option Char :=
  if base = 2 then some 'b' else if base = 8 then some 'o' else if base = 16 then some 'x' else none

/-- A numeral without the mark of its base, which may be there. -/
def dropBaseMark (base : Nat) : Text → Text
  | '0' :: c :: rest => if baseMark? base = some c.toLower then rest else '0' :: c :: rest
  | t => t

/-- The digits of a numeral in a base, with its sign. -/
def numeralIn? (base : Nat) (t : Text) : Option (Bool × List Nat) :=
  let (negative, body) := takeSign (stripMargin t)
  let digits := dropBaseMark base body
  if digits.isEmpty then none
  else (digits.mapM (digitIn? base)).map fun ds => (negative, ds)

/-- The digits before and behind the point, and the exponent, of a numeral in decimal without its
sign. -/
def decimalParts? (t : Text) : Option (List Nat × List Nat × Int) :=
  let whole := t.takeWhile isDecimalDigit
  let rest := t.drop whole.length
  let fraction := if rest.head? = some '.' then (rest.drop 1).takeWhile isDecimalDigit else []
  let rest := if rest.head? = some '.' then rest.drop (fraction.length + 1) else rest
  let values := fun (ds : Text) => ds.filterMap digitValue?
  if whole.isEmpty && fraction.isEmpty then none
  else
    match rest with
    | [] => some (values whole, values fraction, 0)
    | e :: rest =>
      let (negative, digits) := takeSign rest
      if (e = 'e' ∨ e = 'E') ∧ !digits.isEmpty ∧ digits.all isDecimalDigit then
        some (values whole, values fraction, signed negative (ofDigits 10 (values digits)))
      else none

namespace Binary64

/-- A floating-point number in decimal, with white space around it and a sign, or one of the words
for infinity and for what is no number. -/
def ofText? (t : Text) : Option Binary64 :=
  let (negative, body) := takeSign (stripMargin t)
  let word := Text.lower body
  if word = "inf".toList ∨ word = "infinity".toList then some (.infinite negative)
  else if word = "nan".toList then some .nan
  else
    (decimalParts? body).map fun (whole, fraction, exponent) =>
      .ofDecimal negative (ofDigits 10 (whole ++ fraction)) (exponent - fraction.length)

/-- The value of a finite number as a fraction with a positive denominator. -/
def fraction? : Binary64 → Option (Int × Nat)
  | .finite negative m e =>
    if 0 ≤ e then some (signed negative (m * Nat.pow 2 e.toNat), 1)
    else some (signed negative m, Nat.pow 2 (-e).toNat)
  | _ => none

/-- The number nearest to a fraction. -/
def ofFraction (num : Int) (den : Nat) : Binary64 := ofRatio (num < 0) num.natAbs den

/-- One place more in a sum: `digit * base` is rounded, then the sum is. -/
def addPlace (sum : Binary64) (base : Nat) (digit : Binary64) : Binary64 :=
  match digit.fraction? with
  | none => .nan
  | some (n, d) =>
    match sum.fraction?, (ofFraction (n * base) d).fraction? with
    | some (a, b), some (n, d) => ofFraction (a * d + n * b) (b * d)
    | _, _ => .nan

/-- The number whose places, the last first, count by sixties from a base on. -/
def bySixties : Nat → Binary64 → List Binary64 → Binary64
  | _, sum, [] => sum
  | base, sum, digit :: rest => bySixties (base * 60) (addPlace sum base digit) rest

/-- The same number with the other sign. -/
def negate : Binary64 → Binary64
  | .finite negative m e => .finite (!negative) m e
  | .infinite negative => .infinite (!negative)
  | .nan => .nan

end Binary64
end EnvAudit
