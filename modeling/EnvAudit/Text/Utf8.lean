import EnvAudit.Number.Decimal
import EnvAudit.Text.Hex

/-!
# UTF-8

Texts as bytes. Decoding accepts exactly the shortest forms of the code points that are characters,
and names the first sequence that is none. Main statements: `decode_encode`, what was encoded is
read back, and `encode_prefix_iff`, texts start with each other exactly if their bytes do.
-/
namespace EnvAudit.Utf8

/-- Why a sequence of bytes encodes no character. -/
inductive Reason where
  | invalidStart
  | invalidContinuation
  | unexpectedEnd
deriving DecidableEq, Repr

/-- The words for a reason. -/
def Reason.message : Reason → Text
  | .invalidStart => "invalid start byte".toList
  | .invalidContinuation => "invalid continuation byte".toList
  | .unexpectedEnd => "unexpected end of data".toList

/-- The first sequence of bytes that encodes no character. -/
structure Fault where
  reason : Reason
  /-- The position of its first byte. -/
  position : Nat
  first : UInt8
  /-- How many bytes it has beside the first. -/
  more : Nat
deriving DecidableEq, Repr

/-- The message for a fault: a single byte is shown, several are only located. -/
def Fault.message (f : Fault) : Text :=
  "'utf-8' codec can't decode ".toList ++
    (if f.more = 0 then
      "byte 0x".toList ++ hexText 2 f.first.toNat ++ " in position ".toList ++ natText f.position
    else
      "bytes in position ".toList ++ natText f.position ++ ['-'] ++
        natText (f.position + f.more)) ++
    ": ".toList ++ f.reason.message

/-- A byte that continues a sequence. -/
def isContinuation (b : UInt8) : Bool := 0x80 ≤ b.toNat && b.toNat < 0xC0

/-- Whether a second byte can follow the first of a sequence of three: no shorter form and no half
of a pair. -/
def isSecondOfThree (a b : UInt8) : Bool :=
  isContinuation b && (a.toNat != 0xE0 || 0xA0 ≤ b.toNat) && (a.toNat != 0xED || b.toNat < 0xA0)

/-- Whether a second byte can follow the first of a sequence of four: no shorter form and no code
point beyond the last. -/
def isSecondOfFour (a b : UInt8) : Bool :=
  isContinuation b && (a.toNat != 0xF0 || 0x90 ≤ b.toNat) && (a.toNat != 0xF4 || b.toNat < 0x90)

/-- Decodes bytes from a position on; `done` holds the characters so far, the last first. -/
def decodeFrom : Nat → Text → List UInt8 → Except Fault Text
  | _, done, [] => .ok done.reverse
  | pos, done, a :: rest =>
    let n := a.toNat
    if n < 0x80 then decodeFrom (pos + 1) (Char.ofNat n :: done) rest
    else if n < 0xC2 then .error ⟨.invalidStart, pos, a, 0⟩
    else if n < 0xE0 then
      match rest with
      | [] => .error ⟨.unexpectedEnd, pos, a, 0⟩
      | b :: rest =>
        if isContinuation b then
          decodeFrom (pos + 2) (Char.ofNat (n % 32 * 64 + b.toNat % 64) :: done) rest
        else .error ⟨.invalidContinuation, pos, a, 0⟩
    else if n < 0xF0 then
      match rest with
      | [] => .error ⟨.unexpectedEnd, pos, a, 0⟩
      | b :: rest =>
        if isSecondOfThree a b then
          match rest with
          | [] => .error ⟨.unexpectedEnd, pos, a, 1⟩
          | c :: rest =>
            if isContinuation c then
              decodeFrom (pos + 3)
                (Char.ofNat (n % 16 * 4096 + b.toNat % 64 * 64 + c.toNat % 64) :: done) rest
            else .error ⟨.invalidContinuation, pos, a, 1⟩
        else .error ⟨.invalidContinuation, pos, a, 0⟩
    else if n < 0xF5 then
      match rest with
      | [] => .error ⟨.unexpectedEnd, pos, a, 0⟩
      | b :: rest =>
        if isSecondOfFour a b then
          match rest with
          | [] => .error ⟨.unexpectedEnd, pos, a, 1⟩
          | c :: rest =>
            if isContinuation c then
              match rest with
              | [] => .error ⟨.unexpectedEnd, pos, a, 2⟩
              | d :: rest =>
                if isContinuation d then
                  decodeFrom (pos + 4)
                    (Char.ofNat (n % 8 * 262144 + b.toNat % 64 * 4096 + c.toNat % 64 * 64 +
                      d.toNat % 64) :: done) rest
                else .error ⟨.invalidContinuation, pos, a, 2⟩
            else .error ⟨.invalidContinuation, pos, a, 1⟩
        else .error ⟨.invalidContinuation, pos, a, 0⟩
    else .error ⟨.invalidStart, pos, a, 0⟩

/-- The text that bytes encode, or the first fault. -/
def decode (bytes : List UInt8) : Except Fault Text := decodeFrom 0 [] bytes

/-- The text that bytes encode, if they encode one. -/
def decode? (bytes : List UInt8) : Option Text := (decode bytes).toOption

/-- The bytes of one character. -/
def encodeChar (c : Char) : List UInt8 :=
  let n := c.toNat
  if n < 0x80 then [.ofNat n]
  else if n < 0x800 then [.ofNat (0xC0 + n / 64), .ofNat (0x80 + n % 64)]
  else if n < 0x10000 then
    [.ofNat (0xE0 + n / 4096), .ofNat (0x80 + n / 64 % 64), .ofNat (0x80 + n % 64)]
  else
    [.ofNat (0xF0 + n / 262144), .ofNat (0x80 + n / 4096 % 64), .ofNat (0x80 + n / 64 % 64),
      .ofNat (0x80 + n % 64)]

/-- The bytes of a text. -/
def encode (t : Text) : List UInt8 := t.flatMap encodeChar

/-! ## Decoding what was encoded -/

private theorem toNat_ofNat_of_lt {n : Nat} (h : n < 256) : (UInt8.ofNat n).toNat = n := by
  simp [Nat.mod_eq_of_lt h]

/-- The code point of a character is none of the halves of a pair and not beyond the last. -/
theorem charRange (c : Char) : c.toNat < 0xD800 ∨ (0xDFFF < c.toNat ∧ c.toNat < 0x110000) := by
  have h := c.valid
  simp only [UInt32.isValidChar, Nat.isValidChar] at h
  exact h

theorem ofNat_toNat (c : Char) : Char.ofNat c.toNat = c := by
  exact Char.ofNat_toNat c

theorem decodeFrom_encodeChar (pos : Nat) (done : Text) (c : Char) (rest : List UInt8) :
    ∃ pos', decodeFrom pos done (encodeChar c ++ rest) = decodeFrom pos' (c :: done) rest := by
  have hc := charRange c
  unfold encodeChar
  simp only
  split
  · rename_i h
    refine ⟨pos + 1, ?_⟩
    have e := toNat_ofNat_of_lt (show c.toNat < 256 by omega)
    simp only [List.cons_append, List.nil_append]
    conv => lhs; unfold decodeFrom
    simp only [e, h, if_true, ofNat_toNat]
  split
  · rename_i h₁ h₂
    refine ⟨pos + 2, ?_⟩
    have ea := toNat_ofNat_of_lt (show 0xC0 + c.toNat / 64 < 256 by omega)
    have eb := toNat_ofNat_of_lt (show 0x80 + c.toNat % 64 < 256 by omega)
    simp only [List.cons_append, List.nil_append]
    conv => lhs; unfold decodeFrom
    simp only [ea, eb, isContinuation]
    rw [if_neg (by omega), if_neg (by omega), if_pos (by omega), if_pos (by simp; omega)]
    congr 2
    rw [← ofNat_toNat c]
    congr 1
    rw [ofNat_toNat c]
    omega
  split
  · rename_i h₁ h₂ h₃
    refine ⟨pos + 3, ?_⟩
    have ea := toNat_ofNat_of_lt (show 0xE0 + c.toNat / 4096 < 256 by omega)
    have eb := toNat_ofNat_of_lt (show 0x80 + c.toNat / 64 % 64 < 256 by omega)
    have ec := toNat_ofNat_of_lt (show 0x80 + c.toNat % 64 < 256 by omega)
    simp only [List.cons_append, List.nil_append]
    conv => lhs; unfold decodeFrom
    simp only [ea, eb, ec, isContinuation, isSecondOfThree]
    rw [if_neg (by omega), if_neg (by omega), if_neg (by omega), if_pos (by omega),
      if_pos (by simp; omega), if_pos (by simp; omega)]
    congr 2
    rw [← ofNat_toNat c]
    congr 1
    rw [ofNat_toNat c]
    omega
  · rename_i h₁ h₂ h₃
    refine ⟨pos + 4, ?_⟩
    have ea := toNat_ofNat_of_lt (show 0xF0 + c.toNat / 262144 < 256 by omega)
    have eb := toNat_ofNat_of_lt (show 0x80 + c.toNat / 4096 % 64 < 256 by omega)
    have ec := toNat_ofNat_of_lt (show 0x80 + c.toNat / 64 % 64 < 256 by omega)
    have ed := toNat_ofNat_of_lt (show 0x80 + c.toNat % 64 < 256 by omega)
    simp only [List.cons_append, List.nil_append]
    conv => lhs; unfold decodeFrom
    simp only [ea, eb, ec, ed, isContinuation, isSecondOfFour]
    rw [if_neg (by omega), if_neg (by omega), if_neg (by omega), if_neg (by omega),
      if_pos (by omega), if_pos (by simp; omega), if_pos (by simp; omega), if_pos (by simp; omega)]
    congr 2
    rw [← ofNat_toNat c]
    congr 1
    rw [ofNat_toNat c]
    omega

theorem decodeFrom_encode (pos : Nat) (done t : Text) :
    decodeFrom pos done (encode t) = .ok (done.reverse ++ t) := by
  induction t generalizing pos done with
  | nil => simp [encode, decodeFrom]
  | cons c t ih =>
    obtain ⟨pos', h⟩ := decodeFrom_encodeChar pos done c (encode t)
    have e : encode (c :: t) = encodeChar c ++ encode t := by simp [encode]
    rw [e, h, ih]
    simp

/-- What was encoded is read back. -/
theorem decode_encode (t : Text) : decode (encode t) = .ok t := decodeFrom_encode 0 [] t

/-! ## Beginnings of texts -/

theorem encode_append (s t : Text) : encode (s ++ t) = encode s ++ encode t := by
  simp [encode]

theorem decodeFrom_encode_append (pos : Nat) (done s : Text) (rest : List UInt8) :
    ∃ pos', decodeFrom pos done (encode s ++ rest) = decodeFrom pos' (s.reverse ++ done) rest := by
  induction s generalizing pos done with
  | nil => exact ⟨pos, rfl⟩
  | cons c s ih =>
    obtain ⟨pos', h⟩ := decodeFrom_encodeChar pos done c (encode s ++ rest)
    obtain ⟨pos'', h'⟩ := ih pos' (c :: done)
    refine ⟨pos'', ?_⟩
    rw [show encode (c :: s) = encodeChar c ++ encode s by simp [encode], List.append_assoc, h, h']
    simp

/-- A text that is read starts with what was read of it before. -/
theorem prefix_of_decodeFrom {pos : Nat} {done : Text} {bytes : List UInt8} {t : Text}
    (h : decodeFrom pos done bytes = .ok t) : done.reverse <+: t := by
  have hstep : ∀ {c : Char} {done : Text}, (c :: done).reverse <+: t → done.reverse <+: t := by
    intro c done hc
    rw [List.reverse_cons] at hc
    exact (List.prefix_append ..).trans hc
  -- each step reads one character, in one to four bytes, or ends with a fault
  fun_induction decodeFrom pos done bytes
  case case1 =>
    cases h
    exact List.prefix_refl _
  case case2 ih | case5 ih | case9 ih | case15 ih => exact hstep (ih h)
  all_goals cases h

/-- Texts start with each other exactly if their bytes do. -/
theorem encode_prefix_iff {s t : Text} : encode s <+: encode t ↔ s <+: t := by
  constructor
  · rintro ⟨rest, h⟩
    obtain ⟨pos, hpos⟩ := decodeFrom_encode_append 0 [] s rest
    have hread : decodeFrom pos (s.reverse ++ []) rest = .ok t := by
      rw [← hpos, h, decodeFrom_encode, List.reverse_nil, List.nil_append]
    simpa using prefix_of_decodeFrom hread
  · rintro ⟨rest, rfl⟩
    exact ⟨encode rest, (encode_append s rest).symm⟩

/-- Different texts have different bytes. -/
theorem encode_injective {s t : Text} (h : encode s = encode t) : s = t := by
  have hs := decode_encode s
  rw [h, decode_encode] at hs
  cases hs
  rfl

/-- A character of ASCII is its own byte, and all bytes of other characters are greater. -/
theorem toNat_of_mem_encodeChar {b : UInt8} {c : Char} (h : b ∈ encodeChar c) :
    b.toNat = c.toNat ∨ 128 ≤ b.toNat := by
  have hc := charRange c
  have hbyte : ∀ n : Nat, (UInt8.ofNat n).toNat = n % 256 := fun n => UInt8.toNat_ofNat'
  unfold encodeChar at h
  simp only at h
  split at h
  · obtain rfl := List.mem_singleton.mp h
    rw [hbyte]
    omega
  split at h
  · simp only [List.mem_cons, List.not_mem_nil, or_false] at h
    rcases h with rfl | rfl <;> rw [hbyte] <;> omega
  split at h
  · simp only [List.mem_cons, List.not_mem_nil, or_false] at h
    rcases h with rfl | rfl | rfl <;> rw [hbyte] <;> omega
  · simp only [List.mem_cons, List.not_mem_nil, or_false] at h
    rcases h with rfl | rfl | rfl | rfl <;> rw [hbyte] <;> omega

/-- A byte of ASCII in a text is a character of it. -/
theorem mem_of_mem_encode {t : Text} {c : Char} (hc : c.toNat < 128)
    (h : UInt8.ofNat c.toNat ∈ encode t) : c ∈ t := by
  obtain ⟨d, hd, hb⟩ := List.mem_flatMap.mp h
  have hlow := toNat_ofNat_of_lt (show c.toNat < 256 by omega)
  have hsame : c.toNat = d.toNat := by
    have := toNat_of_mem_encodeChar hb
    omega
  rwa [Char.toNat_inj.mp hsame]

end EnvAudit.Utf8
