import EnvAudit.Data

/-!
# Writing JSON

Data as a JSON document on one line, in ASCII: a character beyond it is written by its code in
UTF-16, and so takes one or two escapes.
-/
namespace EnvAudit.Json

/-- One escape of four hexadecimal digits. -/
def unicodeEscape (n : Nat) : Text := '\\' :: 'u' :: hexText 4 n

/-- One character of a string. -/
def printChar (c : Char) : Text :=
  if c = '"' then ['\\', '"']
  else if c = '\\' then ['\\', '\\']
  else if c = '\n' then ['\\', 'n']
  else if c = '\r' then ['\\', 'r']
  else if c = '\t' then ['\\', 't']
  else if c = '\x08' then ['\\', 'b']
  else if c = '\x0c' then ['\\', 'f']
  else
    let n := c.toNat
    if 32 ≤ n ∧ n < 127 then [c]
    else if n < 0x10000 then unicodeEscape n
    else
      unicodeEscape (0xD800 + (n - 0x10000) / 0x400) ++
        unicodeEscape (0xDC00 + (n - 0x10000) % 0x400)

/-- A string in quotes. -/
def printText (t : Text) : Text := '"' :: t.flatMap printChar ++ ['"']

/-- A floating-point number; the values that are no numbers have names of their own. -/
def printFloat : Binary64 → Text
  | .nan => "NaN".toList
  | .infinite negative => (if negative then ['-'] else []) ++ "Infinity".toList
  | x => x.text

mutual

/-- Data as JSON. Data that JSON has no form for is written as the text a message shows. -/
def print : Data → Text
  | .null => "null".toList
  | .bool b => if b then "true".toList else "false".toList
  | .int n => intText n
  | .float x => printFloat x
  | .text t => printText t
  | .bytes bs => printText (Data.bytes bs).shown
  | .date t | .moment t => printText t
  | .pair a b => '[' :: Text.join ", ".toList [print a, print b] ++ [']']
  | .list items | .set items => '[' :: Text.join ", ".toList (printItems items) ++ [']']
  | .map entries => '{' :: Text.join ", ".toList (printEntries entries) ++ ['}']

/-- The items of a list as JSON. -/
def printItems : List Data → List Text
  | [] => []
  | d :: rest => print d :: printItems rest

/-- The entries of a mapping as JSON; a key is always a string. -/
def printEntries : List (Data × Data) → List Text
  | [] => []
  | (k, v) :: rest => (printText k.shown ++ ": ".toList ++ print v) :: printEntries rest

end
end EnvAudit.Json
