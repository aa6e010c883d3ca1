import EnvAudit.Text

/-!
# Bytes as text

Bytes that are written with 64 characters, four for each three bytes. Characters outside of the
alphabet are passed over, and a full group ends with equals signs.
-/
namespace EnvAudit.Yaml.Base64

/-- The characters, by value. -/
def alphabet : Text :=
  "ABCDEFGHIJKLMNOPQRSTUVWXYZabcdefghijklmnopqrstuvwxyz0123456789+/".toList

/-- The value of a character of the alphabet. -/
def value? (c : Char) : Option Nat := alphabet.idxOf? c

/-- Reads on inside a group: how many characters of it were read, how many equals signs followed
the last of them, and the bits that are left over. -/
def decodeFrom : (position signs bits : Nat) → Text → Option (List UInt8)
  | position, _, _, [] => if position = 0 then some [] else none
  | position, signs, bits, c :: rest =>
    if c = '=' then
      if 2 ≤ position then
        if 4 ≤ position + signs + 1 then some [] else decodeFrom position (signs + 1) bits rest
      else decodeFrom position signs bits rest
    else
      match value? c with
      | none => decodeFrom position signs bits rest
      | some v =>
        match position with
        | 0 => decodeFrom 1 0 v rest
        | 1 => (decodeFrom 2 0 (v % 16) rest).map (UInt8.ofNat (bits * 4 + v / 16) :: ·)
        | 2 => (decodeFrom 3 0 (v % 4) rest).map (UInt8.ofNat (bits * 16 + v / 4) :: ·)
        | _ => (decodeFrom 0 0 0 rest).map (UInt8.ofNat (bits * 64 + v) :: ·)

/-- The bytes that a text writes. -/
def decode? (t : Text) : Option (List UInt8) :=
  if t.all (·.toNat < 128) then decodeFrom 0 0 0 t else none

end EnvAudit.Yaml.Base64
