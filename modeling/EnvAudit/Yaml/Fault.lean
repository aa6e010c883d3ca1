import EnvAudit.Number.Decimal

/-!
# What can be wrong with a document

Most documents that cannot be read are malformed, and nothing more is said of them. A scalar whose
tag asks for a value that its text does not have is told apart, with a message that shows the text.
-/
namespace EnvAudit.Yaml

/-- What in a date or time the calendar does not have. -/
inductive CalendarFault where
  | year (n : Nat)
  | month
  | day
  | hour
  | minute
  | second
  /-- An offset of a day or more, in minutes. -/
  | offset (minutes : Int)
deriving DecidableEq, Repr

/-- A length of time in whole days and seconds, as a message shows it. -/
def spanText (minutes : Int) : Text :=
  let days := minutes.fdiv 1440
  let seconds := minutes.fmod 1440 * 60
  "datetime.timedelta(days=".toList ++ intText days ++
    (if seconds = 0 then [] else ", seconds=".toList ++ intText seconds) ++ [')']

/-- The message for a date or time that the calendar does not have. -/
def CalendarFault.message : CalendarFault → Text
  | .year n => "year ".toList ++ natText n ++ " is out of range".toList
  | .month => "month must be in 1..12".toList
  | .day => "day is out of range for month".toList
  | .hour => "hour must be in 0..23".toList
  | .minute => "minute must be in 0..59".toList
  | .second => "second must be in 0..59".toList
  | .offset minutes =>
    "offset must be a timedelta strictly between -timedelta(hours=24) and ".toList ++
      "timedelta(hours=24), not ".toList ++ spanText minutes ++ ['.']

/-- Why a scalar does not have the value that it should. -/
inductive ValueFault where
  /-- No character has this code point. -/
  | noSuchChar (code : Nat)
  /-- A whole number was asked for; what is there, in quotes, and the base. -/
  | notInt (shown : Text) (base : Nat)
  /-- A number was asked for; what is there, in quotes. -/
  | notFloat (shown : Text)
  /-- A number was asked for and nothing is there. -/
  | emptyNumber
  /-- A truth value was asked for; the word that is there, in quotes. -/
  | unknownWord (shown : Text)
  /-- A date was asked for and none is there. -/
  | notDate
  /-- The calendar does not have the date. -/
  | noSuchDate (fault : CalendarFault)
  /-- A number has more digits than are read. -/
  | tooManyDigits (count : Nat)
deriving DecidableEq, Repr

/-- The largest code point that fits the word in which a code point is kept. -/
def maxCodeWord : Nat := 0x7FFFFFFF

/-- The message for a scalar without the value that it should have. -/
def ValueFault.message : ValueFault → Text
  | .noSuchChar code =>
    if code ≤ maxCodeWord then "chr() arg not in range(0x110000)".toList
    else "Python int too large to convert to C int".toList
  | .notInt shown base =>
    "invalid literal for int() with base ".toList ++ natText base ++ ": ".toList ++ shown
  | .notFloat shown => "could not convert string to float: ".toList ++ shown
  | .emptyNumber => "string index out of range".toList
  | .unknownWord shown => shown
  | .notDate => "'NoneType' object has no attribute 'groupdict'".toList
  | .noSuchDate fault => fault.message
  | .tooManyDigits count => tooManyDigitsMessage (some count)

/-- Why a document cannot be read. -/
inductive Fault where
  | malformed
  | value (fault : ValueFault)
deriving DecidableEq, Repr

end EnvAudit.Yaml
