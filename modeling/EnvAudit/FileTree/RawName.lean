import EnvAudit.FileTree.Access

/-!
# Names as they are handed over

A name that is handed over is a list of code points, and not all of them need be characters: a half
of a surrogate pair may stand alone. Some of the halves stand for bytes that are no text; a name with
any other half cannot be encoded, and no file is asked for under it. The bytes of a name that can be
encoded are looked up as they are, so those that are no text name no file of a tree.
-/
namespace EnvAudit

/-- A code point: a character, or the half of a pair at so many places behind the first. -/
inductive CodePoint where
  | char (c : Char)
  | half (n : Fin 0x800)
deriving DecidableEq, Repr

/-- A name as it is handed over. -/
abbrev RawName := List CodePoint

/-- Why a name is not asked for. -/
inductive NameFault where
  | notEncodable
  | embeddedNull
deriving DecidableEq, Repr

/-- Whether the half of a pair stands for a byte that is no text. -/
def CodePoint.isEscape (n : Fin 0x800) : Bool := 0x480 ≤ n.val && n.val < 0x500

/-- The bytes of a code point, if it can be encoded. -/
def CodePoint.bytes? : CodePoint → Option (List UInt8)
  | .char c => some (Utf8.encodeChar c)
  | .half n => if isEscape n then some [.ofNat (n.val - 0x400)] else none

namespace RawName

/-- The bytes of a name, if it can be encoded. -/
def bytes? (name : RawName) : Option (List UInt8) := (name.mapM CodePoint.bytes?).map List.flatten

@[simp] theorem bytes?_nil : bytes? [] = some [] := rfl

theorem bytes?_cons (c : CodePoint) (name : RawName) :
    bytes? (c :: name) =
      c.bytes?.bind fun first => (bytes? name).map fun others => first ++ others := by
  rw [bytes?, List.mapM_cons, bytes?]
  cases c.bytes? with
  | none => rfl
  | some first => cases List.mapM CodePoint.bytes? name <;> rfl

/-- A name that has characters only. -/
def ofText (t : Text) : RawName := t.map .char

/-- Such a name has the bytes of its text. -/
theorem bytes?_ofText (t : Text) : (ofText t).bytes? = some (Utf8.encode t) := by
  induction t with
  | nil => rfl
  | cons c t ih =>
    rw [ofText, List.map_cons, ← ofText, bytes?_cons, ih]
    rfl

/-- The bytes that are looked up for a name. -/
def lookedUp (name : RawName) : Except NameFault (List UInt8) :=
  match name.bytes? with
  | none => .error .notEncodable
  | some bytes => if bytes.contains 0 then .error .embeddedNull else .ok bytes

theorem bytes?_eq_none_iff {name : RawName} :
    name.bytes? = none ↔ ∃ n, .half n ∈ name ∧ CodePoint.isEscape n = false := by
  induction name with
  | nil => simp
  | cons c name ih =>
    rw [bytes?_cons]
    cases c with
    | char c =>
      rw [CodePoint.bytes?, Option.bind_some, Option.map_eq_none_iff, ih]
      simp
    | half n =>
      cases hn : CodePoint.isEscape n with
      | false => exact iff_of_true (by simp [CodePoint.bytes?, hn]) ⟨n, List.mem_cons_self, hn⟩
      | true =>
        have hne : ∀ m, CodePoint.isEscape m = false → m ≠ n := fun m hm he => by simp [he, hn] at hm
        rw [CodePoint.bytes?, if_pos hn, Option.bind_some, Option.map_eq_none_iff, ih]
        constructor
        · exact fun ⟨m, hm, hesc⟩ => ⟨m, List.mem_cons_of_mem _ hm, hesc⟩
        · rintro ⟨m, hm, hesc⟩
          refine ⟨m, (List.mem_cons.mp hm).resolve_left fun he => ?_, hesc⟩
          exact hne m hesc (CodePoint.half.inj he)

/-- An escape stands for no null byte. -/
theorem zero_mem_bytes?_iff {c : CodePoint} {bytes : List UInt8} (h : c.bytes? = some bytes) :
    0 ∈ bytes ↔ c = .char '\x00' := by
  cases c with
  | char c =>
    cases h
    constructor
    · intro hzero
      have hmem : 0 ∈ Utf8.encode [c] := by simpa [Utf8.encode] using hzero
      have hc := Utf8.mem_of_mem_encode (show ('\x00').toNat < 128 by decide) hmem
      rw [List.mem_singleton.mp hc]
    · intro hc
      cases hc
      decide
  | half n =>
    rw [CodePoint.bytes?] at h
    split at h
    · rename_i hesc
      cases h
      have hrange : 0x480 ≤ n.val ∧ n.val < 0x500 := by simpa [CodePoint.isEscape] using hesc
      refine iff_of_false (fun hzero => ?_) (by simp)
      have hbyte := congrArg UInt8.toNat (List.mem_singleton.mp hzero)
      rw [UInt8.toNat_ofNat'] at hbyte
      change 0 = (n.val - 0x400) % 256 at hbyte
      omega
    · cases h

theorem zero_mem_iff {name : RawName} {bytes : List UInt8} (h : name.bytes? = some bytes) :
    0 ∈ bytes ↔ .char '\x00' ∈ name := by
  induction name generalizing bytes with
  | nil =>
    cases h
    simp
  | cons c name ih =>
    rw [bytes?_cons] at h
    obtain ⟨first, hfirst, h⟩ := Option.bind_eq_some_iff.mp h
    obtain ⟨others, hothers, rfl⟩ := Option.map_eq_some_iff.mp h
    rw [List.mem_append, zero_mem_bytes?_iff hfirst, ih hothers, List.mem_cons, eq_comm]

theorem lookedUp_eq_ok_iff {name : RawName} {bytes : List UInt8} :
    name.lookedUp = .ok bytes ↔ name.bytes? = some bytes ∧ 0 ∉ bytes := by
  rw [lookedUp]
  cases name.bytes? with
  | none => simp
  | some found =>
    dsimp only
    by_cases hzero : found.contains 0 = true
    · rw [if_pos hzero]
      refine iff_of_false (by simp) fun ⟨he, hno⟩ => ?_
      cases he
      exact hno (List.contains_iff_mem.mp hzero)
    · rw [if_neg hzero, Except.ok.injEq, Option.some_inj]
      refine ⟨fun he => ⟨he, fun hm => ?_⟩, And.left⟩
      exact hzero (List.contains_iff_mem.mpr (he ▸ hm))

/-- A name is not asked for if it cannot be encoded, or else if it has a null character. -/
theorem lookedUp_eq_error_iff {name : RawName} {fault : NameFault} :
    name.lookedUp = .error fault ↔
      (fault = .notEncodable ∧ ∃ n, .half n ∈ name ∧ CodePoint.isEscape n = false) ∨
        (fault = .embeddedNull ∧ (∀ n, .half n ∈ name → CodePoint.isEscape n = true) ∧
          .char '\x00' ∈ name) := by
  have hall : (∀ n, .half n ∈ name → CodePoint.isEscape n = true) ↔ name.bytes? ≠ none := by
    rw [ne_eq, bytes?_eq_none_iff]
    simp
  rw [hall, ← bytes?_eq_none_iff, lookedUp]
  cases hb : name.bytes? with
  | none => simp [eq_comm]
  | some bytes =>
    rw [← zero_mem_iff hb]
    dsimp only
    by_cases hzero : bytes.contains 0 = true
    · rw [if_pos hzero]
      simp [List.contains_iff_mem.mp hzero, eq_comm]
    · have hno : 0 ∉ bytes := fun hm => hzero (List.contains_iff_mem.mpr hm)
      rw [if_neg hzero]
      simp [hno]

end RawName

/-- The path name that bytes write, if they are text. -/
def PathName.ofBytes? (bytes : List UInt8) : Option PathName :=
  (Utf8.decode? bytes).map PathName.ofText

theorem PathName.ofBytes?_encode (t : Text) : ofBytes? (Utf8.encode t) = some (.ofText t) := by
  rw [ofBytes?, Utf8.decode?, Utf8.decode_encode]
  rfl

namespace FileTree

/-- The text of a file at the path that bytes write. Whatever keeps the file from being read, it has no
text. -/
def textAt (t : FileTree) (maxSize : Int) (path : List UInt8) : Option Text :=
  match PathName.ofBytes? path with
  | none => none
  | some p =>
    if p.isTooLong then none
    else
      match t.bytesOf? p with
      | .ok (some bytes) => textWithin maxSize bytes
      | _ => none

/-- The text of a file under a name that is handed over, or what is wrong with the name. -/
def readNamed (t : FileTree) (name : RawName) (maxSize : Int) : Except NameFault (Option Text) :=
  name.lookedUp.map (t.textAt maxSize)

/-! ## Bytes that are no text -/

/-- A path name that is as long as bytes, part by part, with a letter for each byte that is not
ASCII. -/
def shapeOf (bytes : List UInt8) : PathName :=
  .ofText (bytes.map fun b => if b < 0x80 then Char.ofNat b.toNat else 'x')

/-- The path name in front of the part in which bytes stop being text. -/
def frontOf (bytes : List UInt8) (position : Nat) : PathName :=
  let text := (Utf8.decode? (bytes.take position)).getD []
  .ofText (text.reverse.dropWhile (· != '/')).reverse

/-- Whether the look-up of bytes that stop being text at a position comes upon a name that is too
long: the whole, a part in front, or the first part that is no text, if there is a directory to look
for it in. Otherwise there is nothing of that name. -/
def isTooLongUnder (t : FileTree) (bytes : List UInt8) (position : Nat) : Bool :=
  let shape := shapeOf bytes
  let front := frontOf bytes position
  shape.isTooLong ||
    match t.find? front with
    | .ok (some (_, .dir _)) => isNameTooLong (shape.parts.getD front.parts.length [])
    | .error .nameTooLong => true
    | _ => false

end FileTree
end EnvAudit
