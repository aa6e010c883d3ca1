import EnvAudit.Text.Digit
import EnvAudit.Yaml.Fault

/-!
# Dates and times

A date is written as year, month and day; a time of the day may follow, with a fraction of a second
and an offset from universal time. What is written has to be in the calendar.
-/
namespace EnvAudit.Yaml

/-- An offset from universal time. -/
inductive Offset where
  | universal
  /-- So many minutes, before or after it. -/
  | minutes (m : Int)
deriving DecidableEq, Repr

/-- A time of the day. -/
structure TimeOfDay where
  hour : Nat
  minute : Nat
  second : Nat
  /-- The digits behind the point. -/
  fraction : Text
  offset : Option Offset
deriving DecidableEq, Repr

/-- A date, as it is written, with a time of the day or without. -/
structure Moment where
  year : Nat
  month : Nat
  day : Nat
  /-- Whether month and day have two digits each. -/
  isPadded : Bool
  time : Option TimeOfDay
deriving DecidableEq, Repr

/-- A text without the line feed at its end, before which the form of a scalar may end. -/
def withoutFinalFeed (t : Text) : Text :=
  if t.getLast? = some '\n' then t.dropLast else t

namespace Moment

/-! ## Reading -/

/-- The number of `least` up to `most` digits at the start of a text, and the rest. -/
def digits? (least most : Nat) (t : Text) : Option (Nat × Text) :=
  let ds := (t.take most).takeWhile isAsciiDigit
  if ds.length < least then none
  else some (ofDigits 10 (ds.map asciiDigitValue), t.drop ds.length)

/-- The rest behind a character. -/
def expect? (c : Char) : Text → Option Text
  | d :: rest => if d = c then some rest else none
  | [] => none

/-- An offset that makes up the whole text. -/
def offset? (t : Text) : Option Offset :=
  match t.dropWhile fun c => c == ' ' || c == '\t' with
  | ['Z'] => some .universal
  | c :: rest =>
    if c = '+' ∨ c = '-' then do
      let (hours, rest) ← digits? 1 2 rest
      let minutes : Nat ← match rest with
        | [] => some 0
        | ':' :: rest => do
          let (m, rest) ← digits? 2 2 rest
          if rest.isEmpty then some m else none
        | _ => none
      return .minutes (signed (c = '-') (hours * 60 + minutes))
    else none
  | [] => none

/-- A time of the day that makes up the whole text. -/
def timeOfDay? (t : Text) : Option TimeOfDay := do
  let (hour, t) ← digits? 1 2 t
  let (minute, t) ← digits? 2 2 (← expect? ':' t)
  let (second, t) ← digits? 2 2 (← expect? ':' t)
  let fraction := match t with
    | '.' :: rest => rest.takeWhile isAsciiDigit
    | _ => []
  let t := match t with
    | '.' :: rest => rest.drop fraction.length
    | _ => t
  let offset : Option Offset ← if t.isEmpty then some none else (offset? t).map some
  return ⟨hour, minute, second, fraction, offset⟩

/-- What separates a date from a time: the letter T or blanks. Gives the rest behind it. -/
def separator? : Text → Option Text
  | c :: rest =>
    if c = 'T' ∨ c = 't' then some rest
    else if c = ' ' ∨ c = '\t' then some (rest.dropWhile fun c => c == ' ' || c == '\t')
    else none
  | [] => none

/-- The moment that a text writes from start to end. -/
def ofWhole? (t : Text) : Option Moment := do
  let (year, t) ← digits? 4 4 t
  let afterYear ← expect? '-' t
  let (month, t) ← digits? 1 2 afterYear
  let afterMonth ← expect? '-' t
  let (day, rest) ← digits? 1 2 afterMonth
  let isPadded := afterYear.length - t.length == 2 && afterMonth.length - rest.length == 2
  let time : Option TimeOfDay ← if rest.isEmpty then some none
    else (do timeOfDay? (← separator? rest)).map some
  return ⟨year, month, day, isPadded, time⟩

/-- The moment that a text writes, up to a line feed at its end. -/
def ofText? (t : Text) : Option Moment := ofWhole? (withoutFinalFeed t)

/-! ## The calendar -/

/-- Whether a year has a day more. -/
def isLeap (year : Nat) : Bool := year % 4 == 0 && (year % 100 != 0 || year % 400 == 0)

/-- The number of days of a month. -/
def daysIn (year month : Nat) : Nat :=
  if month = 2 then if isLeap year then 29 else 28
  else if month = 4 ∨ month = 6 ∨ month = 9 ∨ month = 11 then 30 else 31

/-- What the calendar does not have. The offset is looked at first. -/
def fault? (m : Moment) : Option CalendarFault :=
  match m.time.bind (·.offset) with
  | some (.minutes n) => if 1440 ≤ n.natAbs then some (.offset n) else dateFault?
  | _ => dateFault?
where
  /-- What is wrong with the date, then with the time. -/
  dateFault? : Option CalendarFault :=
    if m.year = 0 then some (.year m.year)
    else if m.month = 0 ∨ 12 < m.month then some .month
    else if m.day = 0 ∨ daysIn m.year m.month < m.day then some .day
    else
      match m.time with
      | none => none
      | some t =>
        if 23 < t.hour then some .hour
        else if 59 < t.minute then some .minute
        else if 59 < t.second then some .second
        else none

/-! ## Writing -/

/-- A number with zeros in front, up to a width. -/
def padded (width n : Nat) : Text :=
  let ds := natText n
  List.replicate (width - ds.length) '0' ++ ds

/-- A date as year, month and day. -/
def dateText (m : Moment) : Text :=
  padded 4 m.year ++ '-' :: padded 2 m.month ++ '-' :: padded 2 m.day

/-- Millionths of a second, if there are any. -/
def fractionText (fraction : Text) : Text :=
  let six := (fraction ++ "000000".toList).take 6
  if six.all (· == '0') then [] else '.' :: six

/-- An offset as hours and minutes. -/
def offsetText : Option Offset → Text
  | none => []
  | some .universal => "+00:00".toList
  | some (.minutes n) =>
    (if n < 0 then '-' else '+') :: padded 2 (n.natAbs / 60) ++ ':' :: padded 2 (n.natAbs % 60)

/-- A moment as date and time. -/
def text (m : Moment) : Text :=
  match m.time with
  | none => m.dateText
  | some t =>
    m.dateText ++ ' ' :: padded 2 t.hour ++ ':' :: padded 2 t.minute ++ ':' :: padded 2 t.second ++
      fractionText t.fraction ++ offsetText t.offset

end Moment
end EnvAudit.Yaml
