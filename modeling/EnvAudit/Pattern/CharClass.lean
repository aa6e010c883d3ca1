import EnvAudit.Text.Blank
import EnvAudit.Text.CaseFold
import EnvAudit.Text.Digit
import EnvAudit.Text.WordTable

/-!
# Character classes

A class is a list of items, possibly negated, possibly read without regard to case. `accepts` is
the only question a matcher asks it.
-/
namespace EnvAudit

/-- One member of a character class. -/
inductive ClassItem where
  | char (c : Char)
  | range (first last : Char)
  | digit | notDigit
  | blank | notBlank
  | word | notWord
deriving DecidableEq, Repr

/-- Whether an item names the character itself. -/
def ClassItem.covers : ClassItem → Char → Bool
  | .char d, c => c == d
  | .range first last, c => first.toNat ≤ c.toNat && c.toNat ≤ last.toNat
  | .digit, c => isDecimalDigit c
  | .notDigit, c => !isDecimalDigit c
  | .blank, c => isBlank c
  | .notBlank, c => !isBlank c
  | .word, c => isWordChar c
  | .notWord, c => !isWordChar c

/-- Whether an item names the character or one that differs from it in case only. Digits, blanks
and letters are the same in either case. -/
def ClassItem.coversAnyCase : ClassItem → Char → Bool
  | .char d, c => (caseVariants c).contains d
  | .range first last, c => (caseVariants c).any (ClassItem.range first last).covers
  | item, c => item.covers c

/-- A set of characters as a pattern writes it. -/
structure CharClass where
  items : List ClassItem
  negated : Bool := false
  ignoreCase : Bool := false
deriving DecidableEq, Repr

namespace CharClass

/-- The class of one character. -/
def single (c : Char) : CharClass := { items := [.char c] }

/-- Whether some item names the character, or a variant of it where case is ignored. -/
def names (cls : CharClass) (c : Char) : Bool :=
  if cls.ignoreCase then cls.items.any fun item => item.coversAnyCase c
  else cls.items.any fun item => item.covers c

/-- Whether the character is in the class. -/
def accepts (cls : CharClass) (c : Char) : Bool := cls.names c != cls.negated

@[simp] theorem accepts_single (c d : Char) : (single c).accepts d = (d == c) := by
  simp [single, accepts, names, ClassItem.covers]

/-- Negation turns the answer round. -/
theorem accepts_negated (cls : CharClass) (c : Char) :
    { cls with negated := !cls.negated }.accepts c = !cls.accepts c := by
  simp only [accepts, names]
  cases cls.negated <;> simp

end CharClass
end EnvAudit
