import EnvAudit.Number.Decimal

/-!
# Floating-point numbers

Numbers with a binary significand of 53 digits, as exact values: rounding a fraction to the nearest
of them, and writing one in the fewest decimal digits that read back. All of it is arithmetic on
natural numbers. Positional notation is used from 0.0001 up to below 10^16.
-/
namespace EnvAudit

/-- A floating-point number of double precision. A finite one is `mantissa * 2 ^ exponent` with
its sign; the mantissa is below `2 ^ 53` and the exponent is the smallest that allows it. -/
inductive Binary64 where
  | finite (negative : Bool) (mantissa : Nat) (exponent : Int)
  | infinite (negative : Bool)
  | nan
deriving DecidableEq, Repr

/-- The quotient rounded to the nearest whole number, a tie to the even one. -/
def roundDiv (num den : Nat) : Nat :=
  let q := num / den
  let r := num % den
  if 2 * r < den then q else if den < 2 * r then q + 1 else q + q % 2

namespace Binary64

/-- Multiplies or divides by a power of two, as a fraction. -/
def scale (num den : Nat) (e : Int) : Nat × Nat :=
  if 0 ≤ e then (num, den * Nat.pow 2 e.toNat) else (num * Nat.pow 2 (-e).toNat, den)

/-- The number nearest to a fraction, a tie going to the even mantissa. -/
def ofRatio (negative : Bool) (num den : Nat) : Binary64 :=
  if num = 0 ∨ den = 0 then .finite negative 0 (-1074)
  else
    let guess : Int := (num.log2 : Int) - den.log2 - 52
    let tooBig := let (a, b) := scale num den guess; a < b * Nat.pow 2 52
    let e := max (if tooBig then guess - 1 else guess) (-1074)
    let (a, b) := scale num den e
    let m := roundDiv a b
    let (m, e) := if m = Nat.pow 2 53 then (Nat.pow 2 52, e + 1) else (m, e)
    if 971 < e then .infinite negative else .finite negative m e

/-- The number nearest to `digits * 10 ^ exponent`. -/
def ofDecimal (negative : Bool) (digits : Nat) (exponent : Int) : Binary64 :=
  let size := (Nat.toDigits 10 digits).length + exponent
  if digits = 0 then .finite negative 0 (-1074)
  else if 310 < size then .infinite negative
  else if size < -330 then .finite negative 0 (-1074)
  else if 0 ≤ exponent then ofRatio negative (digits * Nat.pow 10 exponent.toNat) 1
  else ofRatio negative digits (Nat.pow 10 (-exponent).toNat)

/-- The whole number that a floating-point number is, if it is one. -/
def toInt? : Binary64 → Option Int
  | .finite negative m e =>
    if 0 ≤ e then some (signed negative (m * Nat.pow 2 e.toNat))
    else
      let d := Nat.pow 2 (-e).toNat
      if m % d = 0 then some (signed negative (m / d)) else none
  | _ => none

/-- Whether the number is zero, of either sign. -/
def isZero : Binary64 → Bool
  | .finite _ m _ => m == 0
  | _ => false

/-! ## The shortest decimal form -/

/-- The fractions `2 * value`, lower end and upper end of the interval that rounds to
`m * 2 ^ e`, over one denominator and times four, and whether its ends belong to it. -/
structure Interval where
  value : Nat
  low : Nat
  high : Nat
  den : Nat
  closed : Bool

/-- The interval of numbers that round to `m * 2 ^ e`. -/
def interval (m : Nat) (e : Int) : Interval :=
  let below := if m = Nat.pow 2 52 ∧ -1074 < e then 1 else 2
  let up := if 0 ≤ e then Nat.pow 2 e.toNat else 1
  let down := if 0 ≤ e then 1 else Nat.pow 2 (-e).toNat
  { value := 4 * m * up, low := (4 * m - below) * up, high := (4 * m + 2) * up,
    den := 4 * down, closed := m % 2 == 0 }

/-- Whether the fraction `num / den` lies in the interval. -/
def Interval.has (i : Interval) (num den : Nat) : Bool :=
  if i.closed then i.low * den ≤ num * i.den && num * i.den ≤ i.high * den
  else i.low * den < num * i.den && num * i.den < i.high * den

/-- The decimal exponent of a fraction: the largest `k` with `10 ^ k ≤ num / den`. -/
def decimalExponent (num den : Nat) : Int :=
  if den ≤ num then ((Nat.toDigits 10 (num / den)).length : Int) - 1
  else -((Nat.toDigits 10 ((den - 1) / num)).length : Int)

/-- The nearer of the two neighbours of the value among the multiples of `10 ^ k` that lies in
the interval. -/
def nearestOn (i : Interval) (k : Int) : Option Nat :=
  let up := if 0 ≤ k then Nat.pow 10 k.toNat else 1
  let down := if 0 ≤ k then 1 else Nat.pow 10 (-k).toNat
  let num := i.value * down
  let den := i.den * up
  let d := num / den
  let r := num % den
  let lowFits := i.has (d * up) down
  let highFits := i.has ((d + 1) * up) down
  if lowFits && highFits then
    some (if 2 * r < den then d else if den < 2 * r then d + 1 else d + d % 2)
  else if lowFits then some d
  else if highFits then some (d + 1)
  else none

/-- The first grid of at most `n` digits, from one digit on, that holds a number of the interval:
the number and the exponent of its last digit. -/
def shortestFrom (i : Interval) (top : Int) : Nat → Nat → Nat × Int
  | 0, _ => (i.value / i.den, 0)
  | left + 1, n =>
    let k := top + 1 - n
    match nearestOn i k with
    | some d => (d, k)
    | none => shortestFrom i top left (n + 1)

/-- Drops zeros from the end of a numeral; each raises the exponent by one. -/
def dropZeros : Nat → Nat → Int → Nat × Int
  | 0, d, k => (d, k)
  | fuel + 1, d, k => if d % 10 = 0 ∧ d ≠ 0 then dropZeros fuel (d / 10) (k + 1) else (d, k)

/-- The fewest decimal digits that read back as `m * 2 ^ e`, and the exponent of the last one. -/
def shortest (m : Nat) (e : Int) : Nat × Int :=
  if m = 0 then (0, 0)
  else
    let i := interval m e
    let (d, k) := shortestFrom i (decimalExponent i.value i.den) 17 1
    dropZeros 20 d k

/-- The decimal form of a floating-point number. -/
def text : Binary64 → Text
  | .nan => "nan".toList
  | .infinite negative => (if negative then ['-'] else []) ++ "inf".toList
  | .finite negative m e =>
    let (d, k) := shortest m e
    let digits := natText d
    let point : Int := digits.length + k
    let body :=
      if d = 0 then "0.0".toList
      else if 16 < point ∨ point ≤ -4 then
        let x := point - 1
        let mark := digits.take 1 ++ (if digits.length = 1 then [] else '.' :: digits.drop 1)
        let size := natText x.natAbs
        mark ++ ['e', if x < 0 then '-' else '+'] ++ (if size.length < 2 then '0' :: size else size)
      else if point ≤ 0 then "0.".toList ++ List.replicate (-point).toNat '0' ++ digits
      else if digits.length ≤ point.toNat then
        digits ++ List.replicate (point.toNat - digits.length) '0' ++ ".0".toList
      else digits.take point.toNat ++ '.' :: digits.drop point.toNat
    (if negative then ['-'] else []) ++ body

end Binary64
end EnvAudit
