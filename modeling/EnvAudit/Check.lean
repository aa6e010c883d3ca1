import EnvAudit.Data
import EnvAudit.Text.Lowercase
import EnvAudit.Text.Utf8

/-!
# Checking data against a record

A record is read from data field by field. How single values are read is a parameter, a `Coercion`,
of which only `Coercion.KeepsTyped` is ever relied on; the program reads them leniently: a whole
number may be given as text, a truth value as a number or a word. All flaws are reported, in the
order of the fields. `ap_ok_iff` says that a record is read exactly if every field is, and `list_map`
that a list is read back if its items are.
-/
namespace EnvAudit

/-- One step from a record to a part of it. -/
inductive Step where
  | field (name : Text)
  | index (i : Nat)
deriving DecidableEq, Repr

/-- What can be wrong with a piece of data. -/
inductive FlawKind where
  | missing
  | notText
  | notUtf8
  | notInt
  | intText
  | intFraction
  | intSize
  | notFinite
  | notBool
  | boolWord
  | notList
  | notMember
  | notChoice
  | tooSmall
  | notRecord
deriving DecidableEq, Repr

/-- The code of a flaw in reports. -/
def FlawKind.code : FlawKind → Text
  | .missing => "missing".toList
  | .notText => "string_type".toList
  | .notUtf8 => "string_unicode".toList
  | .notInt => "int_type".toList
  | .intText => "int_parsing".toList
  | .intFraction => "int_from_float".toList
  | .intSize => "int_parsing_size".toList
  | .notFinite => "finite_number".toList
  | .notBool => "bool_type".toList
  | .boolWord => "bool_parsing".toList
  | .notList => "list_type".toList
  | .notMember => "enum".toList
  | .notChoice => "literal_error".toList
  | .tooSmall => "greater_than_equal".toList
  | .notRecord => "model_type".toList

/-- A flaw and the way to the part that has it. -/
structure Flaw where
  path : List Step
  kind : FlawKind
deriving DecidableEq, Repr

/-- A value read from data, or all the flaws that were found. -/
abbrev Checked (α : Type) := Except (List Flaw) α

namespace Checked

/-- A single flaw of the data itself. -/
def flaw {α : Type} (kind : FlawKind) : Checked α := .error [⟨[], kind⟩]

/-- What a record is made with, before its first field is read. -/
def start {α : Type} (make : α) : Checked α := .ok make

/-- Applies a checked function to a checked argument; the flaws of both are reported. -/
def ap {α β : Type} : Checked (α → β) → Checked α → Checked β
  | .ok f, .ok a => .ok (f a)
  | .ok _, .error e => .error e
  | .error e, .ok _ => .error e
  | .error e, .error e' => .error (e ++ e')

theorem ap_ok_iff {α β : Type} {f : Checked (α → β)} {a : Checked α} {b : β} :
    f.ap a = .ok b ↔ ∃ g x, f = .ok g ∧ a = .ok x ∧ g x = b := by
  cases f <;> cases a <;> simp [ap]

theorem ap_eq_ok {α β : Type} {f : Checked (α → β)} {a : Checked α} {g : α → β} {x : α}
    (hf : f = .ok g) (ha : a = .ok x) : f.ap a = .ok (g x) :=
  ap_ok_iff.mpr ⟨g, x, hf, ha, rfl⟩

/-- Reports flaws as those of a part. -/
def under {α : Type} (step : Step) : Checked α → Checked α
  | .ok a => .ok a
  | .error flaws => .error (flaws.map fun f => { f with path := step :: f.path })

/-- A field that has to be there. -/
def required {α : Type} (name : String) (check : Data → Checked α) (d : Data) : Checked α :=
  under (.field name.toList) (match d.field? name.toList with
    | some v => check v
    | none => flaw .missing)

/-- A field with a value to take when it is absent. -/
def optional {α : Type} (name : String) (default : α) (check : Data → Checked α) (d : Data) :
    Checked α :=
  under (.field name.toList) (match d.field? name.toList with
    | some v => check v
    | none => .ok default)

section

variable {α : Type} {name : String} {byDefault : α} {check : Data → Checked α} {d d' v : Data}

theorem required_eq_ok (h : d.field? name.toList = some v) {a : α} (hv : check v = .ok a) :
    required name check d = .ok a := by
  unfold required under
  rw [h]
  dsimp only
  rw [hv]

/-- A field that is there has the value that its check reads. -/
theorem optional_eq_ok_iff (h : d.field? name.toList = some v) {a : α} :
    optional name byDefault check d = .ok a ↔ check v = .ok a := by
  unfold optional under
  rw [h]
  dsimp only
  cases check v <;> simp

theorem optional_eq_ok (h : d.field? name.toList = some v) {a : α} (hv : check v = .ok a) :
    optional name byDefault check d = .ok a := (optional_eq_ok_iff h).mpr hv

/-- A field is read from its own entry. -/
theorem optional_congr (h : d.field? name.toList = d'.field? name.toList) :
    optional name byDefault check d = optional name byDefault check d' := by
  unfold optional
  rw [h]

end

/-- Reads a record by its fields, but only from a mapping. -/
def record {α : Type} (d : Data) (fields : Checked α) : Checked α :=
  match d with
  | .map _ => fields
  | _ => flaw .notRecord

end Checked

/-! ## Single values -/

/-- How single values are read from data. -/
structure Coercion where
  text : Data → Checked Text
  int : Data → Checked Int
  bool : Data → Checked Bool
  /-- The items of what counts as a list. -/
  items? : Data → Option (List Data)

/-- What is relied on: what has the kind that is asked for is read as it is. -/
structure Coercion.KeepsTyped (c : Coercion) : Prop where
  text : ∀ t, c.text (.text t) = .ok t
  int : ∀ n, c.int (.int n) = .ok n
  bool : ∀ b, c.bool (.bool b) = .ok b
  items? : ∀ items, c.items? (.list items) = some items

namespace Checked

/-- A text is given as such, or as bytes that encode one. -/
def text : Data → Checked Text
  | .text t => .ok t
  | .bytes bs =>
    match Utf8.decode? bs with
    | some t => .ok t
    | none => flaw .notUtf8
  | _ => flaw .notText

/-- The whole number that a text holds: white space around it, a sign, leading zeros, single
underscores between digits, and a fraction of zeros only. -/
def intOfField? (t : Text) : Option Int :=
  let (negative, t) := takeSign (stripMargin t)
  let whole := t.takeWhile (· != '.')
  let fraction := (t.drop whole.length).drop 1
  if fraction.all (· == '0') then
    (digitsWithUnderscores
      (fun c => if isAsciiDigit c then some (asciiDigitValue c) else none) whole).map
      fun ds => signed negative (ofDigits 10 ds)
  else none

/-- The most characters of a whole number that is given as text. -/
def maxIntText : Nat := 4300

/-- Whether a number fits a signed word of 64 bits. -/
def fitsWord (n : Int) : Bool := -0x8000000000000000 ≤ n && n < 0x8000000000000000

/-- A whole number that is given as text. -/
def intOfField (t : Text) : Checked Int :=
  if maxIntText < t.length then flaw .intSize
  else
    match intOfField? t with
    | some n => .ok n
    | none => flaw .intText

/-- A whole number: as such, as a truth value, as a floating-point number without fraction, or as
text. -/
def int : Data → Checked Int
  | .int n => .ok n
  | .bool b => .ok (if b then 1 else 0)
  | .float x =>
    match x with
    | .finite .. =>
      match x.toInt? with
      | some n => if fitsWord n then .ok n else flaw .intSize
      | none => flaw .intFraction
    | _ => flaw .notFinite
  | .text t => intOfField t
  | .bytes bs =>
    match Utf8.decode? bs with
    | some t => intOfField t
    | none => flaw .intText
  | _ => flaw .notInt

/-- The words for the two truth values. -/
def boolOfWord? (t : Text) : Option Bool :=
  let w := Text.lower t
  if ["0", "off", "f", "false", "n", "no"].any (·.toList == w) then some false
  else if ["1", "on", "t", "true", "y", "yes"].any (·.toList == w) then some true
  else none

/-- A truth value given as a number, which has to be 0 or 1. -/
def boolOfInt (n : Int) : Checked Bool :=
  if n = 0 then .ok false
  else if n = 1 then .ok true
  else if fitsWord n then flaw .boolWord
  else flaw .notBool

/-- A truth value: as such, as 0 or 1, or as a word. -/
def bool : Data → Checked Bool
  | .bool b => .ok b
  | .int n => boolOfInt n
  | .float x =>
    match x.toInt? with
    | some n => boolOfInt n
    | none => flaw .notBool
  | .text t =>
    match boolOfWord? t with
    | some b => .ok b
    | none => flaw .boolWord
  | _ => flaw .notBool

/-- A list; a set is one too. -/
def items? : Data → Option (List Data)
  | .list items | .set items => some items
  | _ => none

end Checked

/-- The lenient reading of single values. -/
def Coercion.lenient : Coercion := ⟨Checked.text, Checked.int, Checked.bool, Checked.items?⟩

theorem Coercion.keepsTyped_lenient : lenient.KeepsTyped :=
  ⟨fun _ => rfl, fun _ => rfl, fun _ => rfl, fun _ => rfl⟩

namespace Checked

/-- A whole number that is at least `least`. -/
def intFrom (c : Coercion) (least : Int) (d : Data) : Checked Int :=
  match c.int d with
  | .ok n => if n < least then flaw .tooSmall else .ok n
  | .error e => .error e

theorem intFrom_int {c : Coercion} (hc : c.KeepsTyped) {least n : Int} (h : least ≤ n) :
    intFrom c least (.int n) = .ok n := by
  unfold intFrom
  rw [hc.int]
  dsimp only
  rw [if_neg (by omega)]

/-- Nothing, or a value. -/
def orNull {α : Type} (check : Data → Checked α) : Data → Checked (Option α)
  | .null => .ok none
  | d =>
    match check d with
    | .ok a => .ok (some a)
    | .error e => .error e

/-- One of the values that a text names; `kind` says what is wrong with all else. -/
def named {α : Type} (kind : FlawKind) (ofName? : Text → Option α) : Data → Checked α
  | .text t =>
    match ofName? t with
    | some a => .ok a
    | none => flaw kind
  | _ => flaw kind

theorem orNull_eq_ok {α : Type} {check : Data → Checked α} {d : Data} {a : α} (hd : d ≠ .null)
    (h : check d = .ok a) : orNull check d = .ok (some a) := by
  unfold orNull
  split
  · exact absurd rfl hd
  · rw [h]

theorem named_text {α : Type} {kind : FlawKind} {ofName? : Text → Option α} {t : Text} {a : α}
    (h : ofName? t = some a) : named kind ofName? (.text t) = .ok a := by
  unfold named
  dsimp only
  rw [h]

/-! ## Lists -/

/-- The items of a list from index `i` on. -/
def itemsFrom {α : Type} (check : Data → Checked α) : Nat → List Data → Checked (List α)
  | _, [] => .ok []
  | i, d :: rest =>
    ap ((match under (.index i) (check d) with
      | .ok a => .ok (a :: ·)
      | .error e => .error e) : Checked (List α → List α)) (itemsFrom check (i + 1) rest)

/-- A list whose items pass the check. -/
def list {α : Type} (c : Coercion) (check : Data → Checked α) (d : Data) : Checked (List α) :=
  match c.items? d with
  | some items => itemsFrom check 0 items
  | none => flaw .notList

/-- A list is read back if each of its items is. -/
theorem itemsFrom_map {α : Type} {check : Data → Checked α} {write : α → Data} {xs : List α}
    (h : ∀ x ∈ xs, check (write x) = .ok x) (i : Nat) :
    itemsFrom check i (xs.map write) = .ok xs := by
  induction xs generalizing i with
  | nil => rfl
  | cons x xs ih =>
    rw [List.forall_mem_cons] at h
    rw [List.map_cons, itemsFrom, h.1, ih h.2]
    rfl

theorem list_map {α : Type} {c : Coercion} (hc : c.KeepsTyped) {check : Data → Checked α}
    {write : α → Data} {xs : List α} (h : ∀ x ∈ xs, check (write x) = .ok x) :
    list c check (.list (xs.map write)) = .ok xs := by
  unfold list
  rw [hc.items?]
  exact itemsFrom_map h 0

end Checked
end EnvAudit
