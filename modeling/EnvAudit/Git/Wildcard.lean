import EnvAudit.Glob.Segment
import EnvAudit.Text.Utf8

/-!
# Wildcards over bytes

Patterns that version control matches names with, byte by byte. A star crosses slashes. A set may
hold bytes, ranges and classes by name; one without end, or with a class that no one knows, fits
nothing. Where case does not count, the bytes of a name are taken in lower case.
-/
namespace EnvAudit.Git

/-- The byte of an ASCII character. -/
def byteOf (c : Char) : UInt8 := UInt8.ofNat c.toNat

/-! ## Bytes of ASCII -/

/-- Whether a byte is in a range of characters. -/
def isFromTo (low high : Char) (b : UInt8) : Bool := byteOf low ≤ b && b ≤ byteOf high

def isLowerByte (b : UInt8) : Bool := isFromTo 'a' 'z' b

def isUpperByte (b : UInt8) : Bool := isFromTo 'A' 'Z' b

/-- The byte in lower case, if case does not count. -/
def foldByte (ignoreCase : Bool) (b : UInt8) : UInt8 :=
  if ignoreCase && isUpperByte b then b + 32 else b

/-- A class of bytes that a set names. -/
inductive ByteClass where
  | alnum | alpha | blank | cntrl | digit | graph | lower | print | punct | space | upper | xdigit
deriving DecidableEq, Repr

namespace ByteClass

/-- The classes by name. -/
def names : List (String × ByteClass) :=
  [("alnum", alnum), ("alpha", alpha), ("blank", blank), ("cntrl", cntrl), ("digit", digit),
    ("graph", graph), ("lower", lower), ("print", print), ("punct", punct), ("space", space),
    ("upper", upper), ("xdigit", xdigit)]

/-- The class of a name. -/
def ofName? (name : List UInt8) : Option ByteClass :=
  (names.find? fun e => e.1.toList.map byteOf == name).map (·.2)

/-- Whether a byte is a letter or a digit. -/
def isAlnum (b : UInt8) : Bool := isLowerByte b || isUpperByte b || isFromTo '0' '9' b

/-- Whether a byte is in the class. All of them are of ASCII. -/
def has (ignoreCase : Bool) (b : UInt8) : ByteClass → Bool
  | alnum => isAlnum b
  | alpha => isLowerByte b || isUpperByte b
  | blank => b == byteOf ' ' || b == byteOf '\t'
  | cntrl => b < 32 || b == 127
  | digit => isFromTo '0' '9' b
  | graph => isFromTo '!' '~' b
  | lower => isLowerByte b
  | print => isFromTo ' ' '~' b
  | punct => isFromTo '!' '~' b && !isAlnum b
  | space => b == byteOf ' ' || b == byteOf '\t' || b == byteOf '\n' || b == byteOf '\r'
  | upper => isUpperByte b || (ignoreCase && isLowerByte b)
  | xdigit => isFromTo '0' '9' b || isFromTo 'a' 'f' b || isFromTo 'A' 'F' b

end ByteClass

/-! ## Sets -/

/-- What a set holds. -/
inductive SetItem where
  | one (b : UInt8)
  | range (low high : UInt8)
  | named (c : ByteClass)
deriving DecidableEq, Repr

/-- Whether a byte is among what a set holds. Where case does not count it is in lower case, and its
upper case is looked for in ranges too. -/
def SetItem.has (ignoreCase : Bool) (b : UInt8) : SetItem → Bool
  | .one c => b == c
  | .range low high =>
    (low ≤ b && b ≤ high) ||
      (ignoreCase && isLowerByte b && low ≤ b - 32 && b - 32 ≤ high)
  | .named c => c.has ignoreCase b

/-- One byte that a pattern asks for. -/
inductive BytePattern where
  | exactly (b : UInt8)
  /-- Any byte. -/
  | any
  /-- A byte that is in a set, or one that is not. -/
  | oneOf (negated : Bool) (items : List SetItem)
  /-- What no byte fits. -/
  | none
deriving DecidableEq, Repr

/-- Whether a byte fits. -/
def BytePattern.accepts (ignoreCase : Bool) (p : BytePattern) (b : UInt8) : Bool :=
  let b := foldByte ignoreCase b
  match p with
  | .exactly c => c == b
  | .any => true
  | .oneOf negated items => items.any (·.has ignoreCase b) != negated
  | .none => false

/-- The class that a set names behind an opening bracket and a colon, with what follows; `some none`
if what stands there is no name. -/
def className? (bytes : List UInt8) : Option (Option (List UInt8 × List UInt8)) :=
  let inside := bytes.takeWhile (· != byteOf ']')
  if inside.length = bytes.length then .none
  else if inside.getLast? = some (byteOf ':') then
    some (some (inside.dropLast, bytes.drop (inside.length + 1)))
  else some .none

/-- What a set holds up to its closing bracket, and what follows. A bracket in first place is in the
set; `before` is the byte that a range could start at. The length bounds the steps. -/
def setItems : Nat → (first : Bool) → (before : Option UInt8) → List UInt8 →
    Option (List SetItem × List UInt8)
  | 0, _, _, _ | _, _, _, [] => .none
  | fuel + 1, first, before, c :: rest =>
    let go (item : SetItem) (before : Option UInt8) (rest : List UInt8) :=
      (setItems fuel false before rest).map fun (items, r) => (item :: items, r)
    if c = byteOf ']' ∧ !first then some ([], rest)
    else if c = byteOf '\\' then
      match rest with
      | [] => .none
      | d :: rest => go (.one d) (some d) rest
    else
      match decide (c = byteOf '-'), before, rest with
      | true, some low, high :: rest' =>
        if high = byteOf ']' then go (.one c) (some c) rest
        else if high = byteOf '\\' then
          match rest' with
          | [] => .none
          | high :: rest' => go (.range low high) .none rest'
        else go (.range low high) .none rest'
      | _, _, _ =>
        if c = byteOf '[' ∧ rest.head? = some (byteOf ':') then
          match className? rest.tail with
          | .none => .none
          | some .none => go (.one c) (some c) rest
          | some (some (name, rest)) =>
            match ByteClass.ofName? name with
            | some cls => go (.named cls) .none rest
            | .none => .none
        else go (.one c) (some c) rest

/-- A set behind its opening bracket, and what follows. -/
def byteSet? (bytes : List UInt8) : Option (BytePattern × List UInt8) :=
  match bytes with
  | [] => .none
  | c :: rest =>
    let negated := c == byteOf '!' || c == byteOf '^'
    let inside := if negated then rest else bytes
    (setItems inside.length true .none inside).map fun (items, r) => (.oneOf negated items, r)

/-! ## Patterns -/

/-- A piece of a pattern: one byte, or any number of bytes. -/
inductive Wildcard where
  | one (p : BytePattern)
  | star
deriving DecidableEq, Repr

/-- The pieces of a pattern, with its length as a bound on their number. -/
def wildcardsFrom (ignoreCase : Bool) : Nat → List UInt8 → List Wildcard
  | 0, _ | _, [] => []
  | fuel + 1, c :: rest =>
    if c = byteOf '*' then .star :: wildcardsFrom ignoreCase fuel rest
    else if c = byteOf '?' then .one .any :: wildcardsFrom ignoreCase fuel rest
    else if c = byteOf '\\' then
      match rest with
      | [] => [.one .none]
      | d :: rest => .one (.exactly d) :: wildcardsFrom ignoreCase fuel rest
    else if c = byteOf '[' then
      match byteSet? rest with
      | some (p, rest) => .one p :: wildcardsFrom ignoreCase fuel rest
      | .none => [.one .none]
    else .one (.exactly (foldByte ignoreCase c)) :: wildcardsFrom ignoreCase fuel rest

/-- The pieces of a pattern. -/
def wildcards (ignoreCase : Bool) (bytes : List UInt8) : List Wildcard :=
  wildcardsFrom ignoreCase bytes.length bytes

/-- Whether the pieces match bytes from start to end. -/
def matchWildcards (ignoreCase : Bool) : List Wildcard → List UInt8 → Bool
  | [], bytes => bytes.isEmpty
  | .star :: ps, bytes => Glob.anyTail (matchWildcards ignoreCase ps) bytes
  | .one p :: ps, b :: bytes => p.accepts ignoreCase b && matchWildcards ignoreCase ps bytes
  | .one _ :: _, [] => false

end EnvAudit.Git
