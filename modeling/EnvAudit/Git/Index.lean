import EnvAudit.Text.Utf8

/-!
# Index files

The names of the files that version control knows, from the file in which it keeps them: a head with
the number of entries, then for each entry 62 bytes of other things and its name, filled up with
null bytes to a multiple of eight.
-/
namespace EnvAudit.Git

/-- The number that bytes write, the greatest first. -/
def bigEndian (bytes : List UInt8) : Nat := bytes.foldl (fun n b => n * 256 + b.toNat) 0

/-- The bytes of an entry before its name. -/
def entryHead : Nat := 62

/-- The length of an entry with a name of so many bytes: at least one null byte follows. -/
def entryLength (nameLength : Nat) : Nat := (entryHead + nameLength) / 8 * 8 + 8

/-- The names of so many entries. -/
def entryNames : Nat → List UInt8 → List Text
  | 0, _ => []
  | count + 1, bytes =>
    let name := (bytes.drop entryHead).takeWhile (· != 0)
    let others := entryNames count (bytes.drop (entryLength name.length))
    match Utf8.decode? name with
    | some t => t :: others
    | none => others

/-- The names in an index file of the second version. -/
def indexNames (bytes : List UInt8) : List Text :=
  if bytes.take 4 = Utf8.encode "DIRC".toList ∧ bigEndian ((bytes.drop 4).take 4) = 2 then
    entryNames (bigEndian ((bytes.drop 8).take 4)) (bytes.drop 12)
  else []

end EnvAudit.Git
