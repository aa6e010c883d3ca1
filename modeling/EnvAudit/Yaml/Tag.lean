import EnvAudit.Text.Hex
import EnvAudit.Yaml.Moment

/-!
# Tags

A tag says what a node stands for. A plain scalar without a tag gets one by its form: numbers, truth
values, dates and the words for nothing have tags of their own, and all else is text.
-/
namespace EnvAudit.Yaml

/-- What a node stands for. -/
inductive Tag where
  | null
  | bool
  | int
  | float
  | text
  | binary
  | timestamp
  | sequence
  | mapping
  | set
  | orderedMapping
  | pairs
  /-- A key whose value is merged into its mapping. -/
  | merge
  /-- A key for the value of its mapping. -/
  | value
  /-- A tag without meaning here. -/
  | unknown
deriving DecidableEq, Repr

namespace Tag

/-- What the names of the common tags start with. -/
def common : Text := "tag:yaml.org,2002:".toList

/-- The common tags, by their names. -/
def commonTags : List (String × Tag) :=
  [("null", null), ("bool", bool), ("int", int), ("float", float), ("str", text),
    ("binary", binary), ("timestamp", timestamp), ("seq", sequence), ("map", mapping),
    ("set", set), ("omap", orderedMapping), ("pairs", pairs), ("merge", merge), ("value", value)]

/-- The tag of a full name. -/
def ofName (name : Text) : Tag :=
  match commonTags.find? fun e => common ++ e.1.toList == name with
  | some (_, tag) => tag
  | none => unknown

/-! ## Forms of plain scalars -/

/-- The words for nothing. -/
def nullWords : List Text := ["~", "null", "Null", "NULL", ""].map String.toList

/-- The words for truth values. -/
def boolWords : List Text :=
  ["yes", "Yes", "YES", "no", "No", "NO", "true", "True", "TRUE", "false", "False", "FALSE",
    "on", "On", "ON", "off", "Off", "OFF"].map String.toList

/-- A digit or an underscore. -/
def isDigitOrUnderscore (c : Char) : Bool := isAsciiDigit c || c == '_'

/-- Digits and underscores, with a digit first. -/
def isDigits : Text → Bool
  | c :: rest => isAsciiDigit c && rest.all isDigitOrUnderscore
  | [] => false

/-- A digit from one on, then digits and underscores. -/
def isPositive (t : Text) : Bool := isDigits t && t.head? != some '0'

/-- A place that counts up to sixty. -/
def isSixtieth : Text → Bool
  | [a] => isAsciiDigit a
  | [a, b] => isAsciiDigit a && a ≤ '5' && isAsciiDigit b
  | _ => false

/-- Whether the parts between colons count by sixties: the first passes a test, and others
follow. -/
def isBySixties (first : Text → Bool) (t : Text) : Bool :=
  match Text.splitOn ':' t with
  | a :: b :: rest => first a && (b :: rest).all isSixtieth
  | _ => false

/-- Whether a text is a nonempty run of characters that pass a test. -/
def isRun (test : Char → Bool) (t : Text) : Bool := !t.isEmpty && t.all test

/-- The form of a whole number without its sign: in base two, sixteen, eight or ten, or by
sixties. -/
def isIntBody (t : Text) : Bool :=
  (match t with
    | '0' :: 'b' :: rest => isRun (fun c => c == '0' || c == '1' || c == '_') rest
    | '0' :: 'x' :: rest => isRun (fun c => (hexValue? c).isSome || c == '_') rest
    | ['0'] => true
    | '0' :: rest => isRun (fun c => ('0' ≤ c && c ≤ '7') || c == '_') rest
    | _ => isPositive t) ||
    isBySixties isPositive t

/-- An exponent with its sign, or nothing. -/
def isExponent : Text → Bool
  | [] => true
  | e :: sign :: ds =>
    (e == 'e' || e == 'E') && (sign == '-' || sign == '+') && isRun isAsciiDigit ds
  | _ => false

/-- The text before the first point and the text behind it. -/
def atPoint? (t : Text) : Option (Text × Text) :=
  let whole := t.takeWhile (· != '.')
  if whole.length < t.length then some (whole, t.drop (whole.length + 1)) else none

/-- The form of a floating-point number without its sign; one that starts with a point has no
sign. -/
def isFloatBody (hasSign : Bool) (t : Text) : Bool :=
  match atPoint? t with
  | none => false
  | some (whole, rest) =>
    let fraction := rest.takeWhile isDigitOrUnderscore
    let exponent := rest.drop fraction.length
    if whole.isEmpty then
      ["inf", "Inf", "INF"].any (·.toList == rest) ||
        (!hasSign && (["nan", "NaN", "NAN"].any (·.toList == rest) ||
          (isDigits fraction && isExponent exponent)))
    else
      (isDigits whole && isExponent exponent) || (isBySixties isDigits whole && exponent.isEmpty)

/-- Whether a text starts with a sign. -/
def hasSign (t : Text) : Bool := t.head? == some '-' || t.head? == some '+'

/-- The form of a date or a moment. A date by itself has two digits for month and day. -/
def isMoment (t : Text) : Bool :=
  match Moment.ofWhole? t with
  | some m => m.time.isSome || m.isPadded
  | none => false

/-- The tag of a plain scalar by its form, which may end before a line feed. A lone line feed has
none of the forms. -/
def ofPlain (t : Text) : Tag :=
  let t := if t = ['\n'] then t else withoutFinalFeed t
  let body := (takeSign t).2
  if nullWords.contains t then null
  else if boolWords.contains t then bool
  else if isIntBody body then int
  else if isFloatBody (hasSign t) body then float
  else if isMoment t then timestamp
  else if t = ['<', '<'] then merge
  else if t = ['='] then value
  else text

end Tag
end EnvAudit.Yaml
