import EnvAudit.Text.Hex
import EnvAudit.Text.PrintableTable

/-!
# Quoted text

The form in which a message shows a text: in single quotes, or in double quotes if only single
quotes occur in it. A backslash and the quote itself are escaped, and what has no visible form is
shown by number.
-/
namespace EnvAudit.Text

/-- The quote that needs the fewest escapes; the single quote if both need some. -/
def quoteFor (t : Text) : Char :=
  if t.contains '\'' && !t.contains '"' then '"' else '\''

/-- A character by its code point: two, four or eight hexadecimal digits. -/
def escapeByNumber (c : Char) : Text :=
  let n := c.toNat
  if n < 0x100 then '\\' :: 'x' :: hexText 2 n
  else if n < 0x10000 then '\\' :: 'u' :: hexText 4 n
  else '\\' :: 'U' :: hexText 8 n

/-- One character between the given quotes. -/
def escapeChar (quote c : Char) : Text :=
  if c = quote || c = '\\' then ['\\', c]
  else if c = '\t' then ['\\', 't']
  else if c = '\n' then ['\\', 'n']
  else if c = '\r' then ['\\', 'r']
  else if c.toNat < 32 || c.toNat = 127 then escapeByNumber c
  else if c.toNat < 127 || isPrintable c then [c]
  else escapeByNumber c

/-- The text in quotes. -/
def quoted (t : Text) : Text :=
  let quote := quoteFor t
  quote :: t.flatMap (escapeChar quote) ++ [quote]

end EnvAudit.Text
