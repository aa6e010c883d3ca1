import EnvAudit.Data
import EnvAudit.Json.Fault

/-!
# Reading JSON

The reader takes the largest value it can at each place and reports the first fault. It admits the
three numbers `NaN`, `Infinity` and `-Infinity` beside the standard, and of two entries with one
name the later wins. A number without fraction and exponent is a whole number of any size.
-/
namespace EnvAudit.Json

/-- Where a reader stands: the position and the text from there on. -/
structure Cursor where
  position : Nat
  rest : Text
deriving DecidableEq, Repr

namespace Cursor

/-- The cursor behind `n` more characters. -/
def skip (n : Nat) (c : Cursor) : Cursor := ⟨c.position + n, c.rest.drop n⟩

/-- The cursor behind the white space of JSON. -/
def skipBlanks (c : Cursor) : Cursor :=
  c.skip (c.rest.takeWhile fun x => x = ' ' || x = '\t' || x = '\n' || x = '\r').length

/-- Whether the text at the cursor starts so. -/
def startsWith (t : String) (c : Cursor) : Bool := t.toList.isPrefixOf c.rest

end Cursor

/-- The fault of a malformed document at a cursor. -/
def fault (reason : Reason) (c : Cursor) : Fault := .malformed reason c.position

/-- The deepest nesting of lists and objects that is read, unless another limit is given. -/
def maxDepth : Nat := 980

/-- The number of four hexadecimal digits. -/
def hex4? : Text → Option Nat
  | [a, b, c, d] => do
    return ofDigits 16 [← hexValue? a, ← hexValue? b, ← hexValue? c, ← hexValue? d]
  | _ => none

/-- The character behind a backslash stands for this one. -/
def simpleEscape? : Char → Option Char
  | '"' => some '"'
  | '\\' => some '\\'
  | '/' => some '/'
  | 'b' => some '\x08'
  | 'f' => some '\x0c'
  | 'n' => some '\n'
  | 'r' => some '\r'
  | 't' => some '\t'
  | _ => none

/-- Reads the four digits of an escape by number; the cursor is behind the letter u. At least one
character must follow the digits, for the string still has to end. -/
def readHex4 (c : Cursor) : Except Fault Nat :=
  if (c.rest.drop 4).isEmpty then .error (.malformed .badUnicodeEscape (c.position - 1))
  else
    match hex4? (c.rest.take 4) with
    | some n => .ok n
    | none => .error (.malformed .badUnicodeEscape (c.position - 1))

/-- Reads an escape by number behind its letter u. Two escapes that together encode one character
beyond the basic plane are read as one; half of such a pair alone becomes the replacement
character. -/
def readUnicodeEscape (c : Cursor) : Except Fault (Char × Cursor) := do
  let high ← readHex4 c
  let behind := c.skip 4
  if 0xD800 ≤ high ∧ high ≤ 0xDBFF ∧ behind.startsWith "\\u" ∧ !(behind.rest.drop 6).isEmpty then
    let low ← readHex4 (behind.skip 2)
    if 0xDC00 ≤ low ∧ low ≤ 0xDFFF then
      .ok (Char.ofNat (0x10000 + (high - 0xD800) * 0x400 + (low - 0xDC00)), behind.skip 6)
    else .ok ('\uFFFD', behind)
  else if 0xD800 ≤ high ∧ high ≤ 0xDFFF then .ok ('\uFFFD', behind)
  else .ok (Char.ofNat high, behind)

/-- Reads the rest of a string whose opening quote is at `opening`; `done` holds the characters
read so far, the last first. -/
def readString (opening : Nat) : Nat → Text → Cursor → Except Fault (Text × Cursor)
  | 0, _, _ => .error (.malformed .unterminatedString opening)
  | fuel + 1, done, c =>
    match c.rest with
    | [] => .error (.malformed .unterminatedString opening)
    | '"' :: _ => .ok (done.reverse, c.skip 1)
    | '\\' :: [] => .error (.malformed .unterminatedString opening)
    | '\\' :: 'u' :: _ => do
      let (x, behind) ← readUnicodeEscape (c.skip 2)
      readString opening fuel (x :: done) behind
    | '\\' :: e :: _ =>
      match simpleEscape? e with
      | some x => readString opening fuel (x :: done) (c.skip 2)
      | none => .error (fault .badEscape c)
    | x :: _ =>
      if x.toNat < 32 then .error (fault .controlCharacter c)
      else readString opening fuel (x :: done) (c.skip 1)

/-- The number at the start of a text as its parts: minus sign, whole part, fraction, exponent. -/
structure Numeral where
  negative : Bool
  whole : Text
  fraction : Text
  exponent : Option Int
  /-- How many characters the numeral takes. -/
  size : Nat

/-- The exponent at the start of a text and its length. -/
def exponentOf (t : Text) : Option (Int × Nat) :=
  match t with
  | e :: rest =>
    if e = 'e' || e = 'E' then
      let (negative, digits) := takeSign rest
      let ds := digits.takeWhile isAsciiDigit
      if ds.isEmpty then none
      else
        some (signed negative (ofDigits 10 (ds.map asciiDigitValue)),
          1 + (rest.length - digits.length) + ds.length)
    else none
  | [] => none

/-- The longest numeral at the start of a text. -/
def numeralOf (t : Text) : Option Numeral :=
  let negative := t.head? = some '-'
  let t := if negative then t.drop 1 else t
  let whole := if t.head? = some '0' then ['0'] else t.takeWhile isAsciiDigit
  if whole.isEmpty then none
  else
    let t := t.drop whole.length
    let fraction := if t.head? = some '.' then (t.drop 1).takeWhile isAsciiDigit else []
    let size := whole.length + (if negative then 1 else 0) +
      (if fraction.isEmpty then 0 else fraction.length + 1)
    let t := if fraction.isEmpty then t else t.drop (fraction.length + 1)
    match exponentOf t with
    | some (x, n) => some ⟨negative, whole, fraction, some x, size + n⟩
    | none => some ⟨negative, whole, fraction, none, size⟩

/-- The value of a numeral. -/
def Numeral.value (n : Numeral) : Except Fault Data :=
  let digits := fun (t : Text) => ofDigits 10 (t.map asciiDigitValue)
  if n.fraction.isEmpty && n.exponent.isNone then
    if maxDecimalDigits < n.whole.length then .error (.tooManyDigits n.whole.length)
    else .ok (.int (signed n.negative (digits n.whole)))
  else
    .ok (.float (.ofDecimal n.negative (digits (n.whole ++ n.fraction))
      (n.exponent.getD 0 - n.fraction.length)))

/-- Reads a number, or reports that a value was expected. -/
def readNumber (c : Cursor) : Except Fault (Data × Cursor) :=
  match numeralOf c.rest with
  | some n => do return (← n.value, c.skip n.size)
  | none => .error (fault .expectingValue c)

mutual

/-- Reads a value at the cursor; `depth` counts the lists and objects around it, of which there may
be `limit`. -/
def readValue (limit : Nat) : Nat → Nat → Cursor → Except Fault (Data × Cursor)
  | 0, _, c => .error (fault .expectingValue c)
  | fuel + 1, depth, c =>
    match c.rest with
    | [] => .error (fault .expectingValue c)
    | '"' :: _ => do
      let (t, behind) ← readString c.position fuel [] (c.skip 1)
      return (.text t, behind)
    | '{' :: _ =>
      if limit ≤ depth then .error (.tooDeep false)
      else
        let inner := (c.skip 1).skipBlanks
        if inner.startsWith "\x7d" then .ok (.map [], inner.skip 1)
        else do
          let (entries, behind) ← readEntries limit fuel (depth + 1) inner
          return (Data.ofEntries entries, behind)
    | '[' :: _ =>
      if limit ≤ depth then .error (.tooDeep true)
      else
        let inner := (c.skip 1).skipBlanks
        if inner.startsWith "]" then .ok (.list [], inner.skip 1)
        else do
          let (items, behind) ← readItems limit fuel (depth + 1) inner
          return (.list items, behind)
    | _ =>
      if c.startsWith "null" then .ok (.null, c.skip 4)
      else if c.startsWith "true" then .ok (.bool true, c.skip 4)
      else if c.startsWith "false" then .ok (.bool false, c.skip 5)
      else if c.startsWith "NaN" then .ok (.float .nan, c.skip 3)
      else if c.startsWith "Infinity" then .ok (.float (.infinite false), c.skip 8)
      else if c.startsWith "-Infinity" then .ok (.float (.infinite true), c.skip 9)
      else readNumber c

/-- Reads the items of a list up to its end. -/
def readItems (limit : Nat) : Nat → Nat → Cursor → Except Fault (List Data × Cursor)
  | 0, _, c => .error (fault .expectingValue c)
  | fuel + 1, depth, c => do
    let (item, behind) ← readValue limit fuel depth c
    let next := behind.skipBlanks
    if next.startsWith "]" then return ([item], next.skip 1)
    else if next.startsWith "," then
      let (items, behind) ← readItems limit fuel depth (next.skip 1).skipBlanks
      return (item :: items, behind)
    else .error (fault .expectingComma next)

/-- Reads the entries of an object up to its end. -/
def readEntries (limit : Nat) : Nat → Nat → Cursor → Except Fault (List (Data × Data) × Cursor)
  | 0, _, c => .error (fault .expectingName c)
  | fuel + 1, depth, c =>
    if !c.startsWith "\"" then .error (fault .expectingName c)
    else do
      let (name, behind) ← readString c.position fuel [] (c.skip 1)
      let colon := behind.skipBlanks
      if !colon.startsWith ":" then .error (fault .expectingColon colon)
      else
        let (value, behind) ← readValue limit fuel depth (colon.skip 1).skipBlanks
        let next := behind.skipBlanks
        if next.startsWith "\x7d" then return ([(.text name, value)], next.skip 1)
        else if next.startsWith "," then
          let (entries, behind) ← readEntries limit fuel depth (next.skip 1).skipBlanks
          return ((.text name, value) :: entries, behind)
        else .error (fault .expectingComma next)

end

/-- Reads a document that holds one value and nothing else but white space. Every value takes a
character, so there are enough steps for all of them. -/
def read (doc : Text) (limit : Nat := maxDepth) : Except Fault Data := do
  if doc.head? = some '\uFEFF' then .error (.malformed .byteOrderMark 0)
  else
    let (value, behind) ← readValue limit (2 * doc.length + 2) 0 (Cursor.mk 0 doc).skipBlanks
    let rest := behind.skipBlanks
    if rest.rest.isEmpty then return value else .error (fault .extraData rest)

end EnvAudit.Json
