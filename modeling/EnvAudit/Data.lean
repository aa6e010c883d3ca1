import EnvAudit.Number.Binary64
import EnvAudit.Text.Quoted

/-!
# Data

Plain data as it is read from a document: numbers, texts, lists and mappings. Here are the questions
that the rest of the library asks of it: which entry has a key, whether it counts as true, what kind
it is, and how it reads in a message.

A mapping keeps its entries in the order in which their keys came first. Keys are told apart by
value, so that the number 1, the number 1.0 and the truth value are one key. Main statements:
`find?_insert`, and `KeysDistinct.insert`: a mapping that is put together entry by entry has each key
once.
-/
namespace EnvAudit

/-- A piece of plain data. -/
inductive Data where
  | null
  | bool (b : Bool)
  | int (n : Int)
  | float (x : Binary64)
  | text (t : Text)
  | bytes (bs : List UInt8)
  /-- A day of the calendar, in the form a message shows. -/
  | date (shown : Text)
  /-- A moment of a day, in the form a message shows. -/
  | moment (shown : Text)
  | pair (first second : Data)
  | list (items : List Data)
  /-- Data without order, each once. -/
  | set (items : List Data)
  | map (entries : List (Data × Data))
deriving BEq, Repr, Inhabited

namespace Data

/-- The number that a piece of data stands for when it is compared: a truth value counts as 0
or 1. -/
def number? : Data → Option (Int ⊕ Binary64)
  | .bool b => some (.inl (if b then 1 else 0))
  | .int n => some (.inl n)
  | .float x =>
    match x.toInt? with
    | some n => some (.inl n)
    | none => some (.inr x)
  | _ => none

/-- Whether two pieces of data that are no pairs are one key. Only data that can be a key is ever
compared, so lists and mappings differ from everything. -/
def sameSingle (a b : Data) : Bool :=
  match a.number?, b.number? with
  | some x, some y => x == y
  | none, none =>
    match a, b with
    | .null, .null => true
    | .text s, .text t => s == t
    | .bytes s, .bytes t => s == t
    | .date s, .date t => s == t
    | .moment s, .moment t => s == t
    | _, _ => false
  | _, _ => false

/-- Whether two pieces of data are one key. -/
def sameKey : Data → Data → Bool
  | .pair a b, .pair c d => sameKey a c && sameKey b d
  | a, b => sameSingle a b

/-- What a mapping gives for a key. -/
def find? (key : Data) : List (Data × Data) → Option Data
  | [] => none
  | (k, v) :: rest => if sameKey k key then some v else find? key rest

/-- Sets a key: the entry keeps its place if there is one, else it comes last. -/
def insert (key value : Data) : List (Data × Data) → List (Data × Data)
  | [] => [(key, value)]
  | (k, v) :: rest => if sameKey k key then (k, value) :: rest else (k, v) :: insert key value rest

/-- A mapping from the entries in order; of two with one key the later gives the value. -/
def ofEntries (entries : List (Data × Data)) : Data :=
  .map (entries.foldl (fun m (k, v) => insert k v m) [])

/-- The first of each group of items that are one key, in order. -/
def distinct (items : List Data) : List Data :=
  items.foldl (fun seen x => if seen.any (sameKey x) then seen else seen ++ [x]) []

/-- The entry of a mapping under a text; other data has no entries. -/
def field? (name : Text) : Data → Option Data
  | .map entries => find? (.text name) entries
  | _ => none

/-- Whether the data counts as true: it is not nothing, zero or empty. -/
def isTruthy : Data → Bool
  | .null => false
  | .bool b => b
  | .int n => n != 0
  | .float x => !x.isZero
  | .text t => !t.isEmpty
  | .bytes bs => !bs.isEmpty
  | .date _ | .moment _ | .pair .. => true
  | .list items | .set items => !items.isEmpty
  | .map entries => !entries.isEmpty

/-- Whether the data can be a key of a mapping. -/
def isKey : Data → Bool
  | .list _ | .set _ | .map _ => false
  | .pair a b => a.isKey && b.isKey
  | _ => true

/-- The word for the kind of data. -/
def kindName : Data → Text
  | .null => "NoneType".toList
  | .bool _ => "bool".toList
  | .int _ => "int".toList
  | .float _ => "float".toList
  | .text _ => "str".toList
  | .bytes _ => "bytes".toList
  | .date _ => "date".toList
  | .moment _ => "datetime".toList
  | .pair .. => "tuple".toList
  | .list _ => "list".toList
  | .set _ => "set".toList
  | .map _ => "dict".toList

/-- The word for the kind of what keeps data from being a key. -/
def noKeyKind : Data → Text
  | .pair a b => if a.isKey then b.noKeyKind else a.noKeyKind
  | d => d.kindName

/-! ## Data in messages -/

/-- One byte of a quoted byte string. -/
def escapeByte (b : UInt8) : Text :=
  let c := Char.ofNat b.toNat
  if b.toNat < 127 then Text.escapeChar '\'' c else '\\' :: 'x' :: hexText 2 b.toNat

/-- The items with a comma and a space between neighbours. -/
def commaSeparated (items : List Text) : Text := Text.join ", ".toList items

mutual

/-- The form of data inside other data: texts are quoted. -/
def quoted : Data → Text
  | .null => "None".toList
  | .bool b => if b then "True".toList else "False".toList
  | .int n => intText n
  | .float x => x.text
  | .text t => t.quoted
  | .bytes bs => 'b' :: '\'' :: bs.flatMap escapeByte ++ ['\'']
  | .date t | .moment t => t
  | .pair a b => '(' :: commaSeparated [a.quoted, b.quoted] ++ [')']
  | .list items => '[' :: commaSeparated (quotedItems items) ++ [']']
  | .set items =>
    if items.isEmpty then "set()".toList else '{' :: commaSeparated (quotedItems items) ++ ['}']
  | .map entries => '{' :: commaSeparated (quotedEntries entries) ++ ['}']

/-- The items of a list, each in its form inside other data. -/
def quotedItems : List Data → List Text
  | [] => []
  | d :: rest => d.quoted :: quotedItems rest

/-- The entries of a mapping, each as key and value with a colon between. -/
def quotedEntries : List (Data × Data) → List Text
  | [] => []
  | (k, v) :: rest => (k.quoted ++ ": ".toList ++ v.quoted) :: quotedEntries rest

end

/-- The form of data by itself: a text stands as it is. -/
def shown : Data → Text
  | .text t => t
  | d => d.quoted

/-- Whether a key has a form in messages. -/
def isShowable : Data → Bool
  | .int n => isWritable n
  | .pair a b => a.isShowable && b.isShowable
  | _ => true

/-! ## Lookup after an insertion -/

instance : LawfulBEq (Int ⊕ Binary64) where
  eq_of_beq {x y} h := by
    cases x <;> cases y
    · exact congrArg Sum.inl (eq_of_beq (α := Int) h)
    · cases h
    · cases h
    · exact congrArg Sum.inr (eq_of_beq (α := Binary64) h)
  rfl {x} := by
    cases x with
    | inl n => exact BEq.rfl (a := n)
    | inr x => exact BEq.rfl (a := x)

theorem sameSingle_comm (a b : Data) : sameSingle a b = sameSingle b a := by
  unfold sameSingle
  cases ha : a.number? with
  | some x =>
    cases b.number? with
    | some y => exact Bool.beq_comm
    | none => rfl
  | none =>
    cases hb : b.number? with
    | some y => rfl
    | none => cases a <;> cases b <;> simp_all [number?, Bool.beq_comm]

theorem sameSingle_congr {a b : Data} (h : sameSingle a b = true) (c : Data) :
    sameSingle a c = sameSingle b c := by
  cases ha : a.number? with
  | some x =>
    cases hb : b.number? with
    | some y =>
      obtain rfl : x = y := by simpa [sameSingle, ha, hb] using h
      simp only [sameSingle, ha, hb]
      cases c.number? <;> rfl
    | none => simp [sameSingle, ha, hb] at h
  | none =>
    cases hb : b.number? with
    | some y => simp [sameSingle, ha, hb] at h
    | none => cases a <;> cases b <;> simp_all [sameSingle, number?]

theorem sameKey_comm (a b : Data) : sameKey a b = sameKey b a := by
  fun_induction sameKey a b with
  | case1 a b c d ih₁ ih₂ => rw [sameKey, ih₁, ih₂]
  | case2 a b hpairs =>
    rw [sameSingle_comm, sameKey.eq_2 b a fun _ _ _ _ hb ha => hpairs _ _ _ _ ha hb]

theorem sameSingle_pair (a₁ a₂ b : Data) : sameSingle (.pair a₁ a₂) b = false := by
  have hpair : number? (.pair a₁ a₂) = none := rfl
  unfold sameSingle
  rw [hpair]
  cases b.number? <;> rfl

theorem sameKey_of_sameSingle {a b : Data} (h : sameSingle a b = true) (c : Data) :
    sameKey a c = sameSingle a c := by
  cases a with
  | pair a₁ a₂ => cases (sameSingle_pair a₁ a₂ b).symm.trans h
  | _ => rfl

/-- What is one key with a key is one key with the same data. -/
theorem sameKey_congr {a b : Data} (h : sameKey a b = true) (c : Data) :
    sameKey a c = sameKey b c := by
  fun_induction sameKey a b generalizing c with
  | case1 a₁ a₂ b₁ b₂ ih₁ ih₂ =>
    obtain ⟨h₁, h₂⟩ := Bool.and_eq_true_iff.mp h
    cases c with
    | pair c₁ c₂ => rw [sameKey, sameKey, ih₁ h₁, ih₂ h₂]
    | _ => rfl
  | case2 a b hpairs =>
    rw [sameKey_of_sameSingle h, sameSingle_congr h]
    rw [sameSingle_comm] at h
    rw [sameKey_of_sameSingle h]

/-- A mapping gives the value that a key was set to, and for another key what it gave before. -/
theorem find?_insert (key other value : Data) (m : List (Data × Data)) :
    find? other (insert key value m) =
      if sameKey key other = true then some value else find? other m := by
  induction m with
  | nil => rfl
  | cons e m ih =>
    obtain ⟨k, v⟩ := e
    by_cases hk : sameKey k key = true
    · simp only [insert, if_pos hk, find?, sameKey_congr hk other]
      split <;> rfl
    · simp only [insert, if_neg hk, find?, ih]
      by_cases ho : sameKey k other = true
      · have hne : ¬ sameKey key other = true := fun h => by
          rw [sameKey_congr ho, sameKey_comm] at hk
          exact hk h
        simp [ho, hne]
      · simp [ho]

/-! ## Distinct keys -/

/-- Whether no two entries of a mapping have one key. -/
def KeysDistinct (m : List (Data × Data)) : Prop :=
  (m.map Prod.fst).Pairwise fun a b => sameKey a b = false

theorem keysDistinct_nil : KeysDistinct [] := List.Pairwise.nil

theorem map_fst_insert (key value : Data) (m : List (Data × Data)) :
    (insert key value m).map Prod.fst =
      if (m.map Prod.fst).any (sameKey · key) = true then m.map Prod.fst
      else m.map Prod.fst ++ [key] := by
  induction m with
  | nil => rfl
  | cons e m ih =>
    obtain ⟨k, v⟩ := e
    by_cases hk : sameKey k key = true
    · simp [insert, hk]
    · rw [insert, if_neg hk, List.map_cons, ih, List.map_cons, List.any_cons,
        eq_false_of_ne_true hk, Bool.false_or]
      split <;> rfl

theorem KeysDistinct.insert {m : List (Data × Data)} (h : KeysDistinct m) (key value : Data) :
    KeysDistinct (insert key value m) := by
  rw [KeysDistinct, map_fst_insert]
  split
  · exact h
  · rename_i hany
    refine List.pairwise_append.mpr ⟨h, List.pairwise_singleton .., fun k hk k' hk' => ?_⟩
    rw [List.mem_singleton.mp hk']
    exact eq_false_of_ne_true fun hs => hany (List.any_eq_true.mpr ⟨k, hk, hs⟩)

theorem KeysDistinct.foldl_insert {m : List (Data × Data)} (h : KeysDistinct m)
    (pairs : List (Data × Data)) :
    KeysDistinct (pairs.foldl (fun m (k, v) => Data.insert k v m) m) := by
  induction pairs generalizing m with
  | nil => exact h
  | cons e pairs ih => exact ih (h.insert e.1 e.2)

end Data
end EnvAudit
