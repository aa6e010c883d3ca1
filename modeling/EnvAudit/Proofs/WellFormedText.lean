import EnvAudit.Text.Utf8

/-!
# Well-formed UTF-8

What well-formed bytes are, said without reading them: the forms of characters, one behind the
other. A form is a lead byte, whose first bits tell how many bytes follow it, and these bytes
(`IsForm`). That of a character is the shortest of its code point, which is no half of a pair and
not beyond the last (`IsCharForm`). Encoding a character writes its form (`isCharForm_iff`), so
bytes are well-formed exactly if a text has them (`isWellFormed_iff`), and decoding reads just that
text (`decode?_eq_some_iff`).
-/
namespace EnvAudit.Utf8

/-! ## Forms -/

/-- Whether the first bits of a byte are `10`. -/
def IsTail (b : UInt8) : Prop := b.toNat / 64 = 0b10

/-- Whether bytes are a form of a code point: behind the first bits of each stand its bits. -/
inductive IsForm (n : Nat) : List UInt8 → Prop
  /-- `0xxxxxxx` -/
  | one {a : UInt8} (ha : a.toNat / 128 = 0b0) (hn : n = a.toNat % 128) : IsForm n [a]
  /-- `110xxxxx 10xxxxxx` -/
  | two {a b : UInt8} (ha : a.toNat / 32 = 0b110) (hb : IsTail b)
      (hn : n = a.toNat % 32 * 64 + b.toNat % 64) : IsForm n [a, b]
  /-- `1110xxxx 10xxxxxx 10xxxxxx` -/
  | three {a b c : UInt8} (ha : a.toNat / 16 = 0b1110) (hb : IsTail b) (hc : IsTail c)
      (hn : n = a.toNat % 16 * 4096 + b.toNat % 64 * 64 + c.toNat % 64) : IsForm n [a, b, c]
  /-- `11110xxx 10xxxxxx 10xxxxxx 10xxxxxx` -/
  | four {a b c d : UInt8} (ha : a.toNat / 8 = 0b11110) (hb : IsTail b) (hc : IsTail c)
      (hd : IsTail d)
      (hn : n = a.toNat % 8 * 262144 + b.toNat % 64 * 4096 + c.toNat % 64 * 64 + d.toNat % 64) :
      IsForm n [a, b, c, d]

/-- Whether bytes are the form of the character with a code point. -/
structure IsCharForm (n : Nat) (form : List UInt8) : Prop where
  isForm : IsForm n form
  shortest : ∀ form', IsForm n form' → form.length ≤ form'.length
  notHalf : ¬ (0xD800 ≤ n ∧ n ≤ 0xDFFF)
  inRange : n ≤ 0x10FFFF

/-- Whether bytes are the forms of characters, one behind the other. -/
inductive IsWellFormed : List UInt8 → Prop
  | nil : IsWellFormed []
  | cons {n : Nat} {form rest : List UInt8} (h : IsCharForm n form) (hrest : IsWellFormed rest) :
      IsWellFormed (form ++ rest)

theorem isTail_of_isContinuation {b : UInt8} (h : isContinuation b = true) : IsTail b := by
  simp only [isContinuation, Bool.and_eq_true, decide_eq_true_eq] at h
  unfold IsTail
  omega

theorem isTail_ofNat (n : Nat) : IsTail (.ofNat (0x80 + n % 64)) := by
  unfold IsTail
  rw [UInt8.toNat_ofNat']
  omega

theorem eq_ofNat {a : UInt8} {n : Nat} (h : a.toNat = n) : a = .ofNat n := by
  rw [← h, UInt8.ofNat_toNat]

/-! ## The shortest form -/

/-- How many bytes the shortest form of a code point has. -/
def formLength (n : Nat) : Nat :=
  if n < 0x80 then 1 else if n < 0x800 then 2 else if n < 0x10000 then 3 else 4

theorem formLength_cases (n : Nat) :
    (n < 0x80 ∧ formLength n = 1) ∨ (0x80 ≤ n ∧ n < 0x800 ∧ formLength n = 2) ∨
      (0x800 ≤ n ∧ n < 0x10000 ∧ formLength n = 3) ∨ (0x10000 ≤ n ∧ formLength n = 4) := by
  unfold formLength
  split
  · omega
  split
  · omega
  split <;> omega

theorem IsForm.formLength_le {n : Nat} {form : List UInt8} (h : IsForm n form) :
    formLength n ≤ form.length := by
  have hlen := formLength_cases n
  cases h <;> simp only [List.length_cons, List.length_nil] <;> omega

theorem length_encodeChar (c : Char) : (encodeChar c).length = formLength c.toNat := by
  have hlen := formLength_cases c.toNat
  unfold encodeChar
  simp only
  split
  · simp only [List.length_cons, List.length_nil]
    omega
  split
  · simp only [List.length_cons, List.length_nil]
    omega
  split <;> simp only [List.length_cons, List.length_nil] <;> omega

theorem isForm_encodeChar (c : Char) : IsForm c.toNat (encodeChar c) := by
  have hc := charRange c
  unfold encodeChar
  simp only
  split
  · refine .one ?_ ?_ <;> rw [UInt8.toNat_ofNat'] <;> omega
  split
  · refine .two ?_ (isTail_ofNat _) ?_ <;> simp only [UInt8.toNat_ofNat'] <;> omega
  split
  · refine .three ?_ (isTail_ofNat _) (isTail_ofNat _) ?_ <;> simp only [UInt8.toNat_ofNat'] <;> omega
  · refine .four ?_ (isTail_ofNat _) (isTail_ofNat _) (isTail_ofNat _) ?_ <;>
      simp only [UInt8.toNat_ofNat'] <;> omega

/-- The shortest form of a character is what encoding writes. -/
theorem IsForm.encodeChar_eq {c : Char} {form : List UInt8} (h : IsForm c.toNat form)
    (hshort : form.length ≤ formLength c.toNat) : encodeChar c = form := by
  have hlen := formLength_cases c.toNat
  unfold encodeChar
  simp only
  cases h with
  | @one a ha hn =>
    rw [if_pos (by omega), ← eq_ofNat (show a.toNat = _ by omega)]
  | @two a b ha hb hn =>
    change 2 ≤ _ at hshort
    unfold IsTail at hb
    rw [if_neg (by omega), if_pos (by omega), ← eq_ofNat (show a.toNat = _ by omega),
      ← eq_ofNat (show b.toNat = _ by omega)]
  | @three a b c ha hb hc hn =>
    change 3 ≤ _ at hshort
    unfold IsTail at hb hc
    rw [if_neg (by omega), if_neg (by omega), if_pos (by omega),
      ← eq_ofNat (show a.toNat = _ by omega), ← eq_ofNat (show b.toNat = _ by omega),
      ← eq_ofNat (show c.toNat = _ by omega)]
  | @four a b c d ha hb hc hd hn =>
    change 4 ≤ _ at hshort
    unfold IsTail at hb hc hd
    rw [if_neg (by omega), if_neg (by omega), if_neg (by omega),
      ← eq_ofNat (show a.toNat = _ by omega), ← eq_ofNat (show b.toNat = _ by omega),
      ← eq_ofNat (show c.toNat = _ by omega), ← eq_ofNat (show d.toNat = _ by omega)]

theorem IsForm.encodeChar_ofNat {n : Nat} {form : List UInt8} (h : IsForm n form)
    (hvalid : n.isValidChar) (hshort : form.length ≤ formLength n) :
    encodeChar (Char.ofNat n) = form := by
  have hn : (Char.ofNat n).toNat = n := congrArg Char.toNat (dif_pos hvalid)
  rw [← hn] at h hshort
  exact h.encodeChar_eq hshort

/-- The form of a character is what encoding writes, and nothing else is one. -/
theorem isCharForm_iff {n : Nat} {form : List UInt8} :
    IsCharForm n form ↔ ∃ c : Char, c.toNat = n ∧ encodeChar c = form := by
  constructor
  · rintro ⟨hform, hshortest, hhalf, hrange⟩
    have hvalid : n.isValidChar := by
      unfold Nat.isValidChar
      omega
    have hn : (Char.ofNat n).toNat = n := congrArg Char.toNat (dif_pos hvalid)
    have hshort := hshortest _ (hn ▸ isForm_encodeChar (Char.ofNat n))
    rw [length_encodeChar, hn] at hshort
    exact ⟨Char.ofNat n, hn, hform.encodeChar_ofNat hvalid hshort⟩
  · rintro ⟨c, rfl, rfl⟩
    have hc := charRange c
    refine ⟨isForm_encodeChar c, fun form' h => ?_, by omega, by omega⟩
    rw [length_encodeChar]
    exact h.formLength_le

/-! ## Texts -/

theorem encode_cons (c : Char) (t : Text) : encode (c :: t) = encodeChar c ++ encode t := rfl

/-- Bytes are well-formed exactly if a text has them. -/
theorem isWellFormed_iff {bytes : List UInt8} : IsWellFormed bytes ↔ ∃ t, encode t = bytes := by
  constructor
  · intro h
    induction h with
    | nil => exact ⟨[], rfl⟩
    | cons h _ ih =>
      obtain ⟨c, -, rfl⟩ := isCharForm_iff.mp h
      obtain ⟨t, rfl⟩ := ih
      exact ⟨c :: t, encode_cons c t⟩
  · rintro ⟨t, rfl⟩
    induction t with
    | nil => exact .nil
    | cons c t ih =>
      rw [encode_cons]
      exact .cons (isCharForm_iff.mpr ⟨c, rfl, rfl⟩) ih

/-! ## Reading -/

section

variable {a b c d : UInt8}

theorem encodeChar_of_one (ha : a.toNat < 0x80) : encodeChar (Char.ofNat a.toNat) = [a] := by
  have hform : IsForm a.toNat [a] := .one (by omega) (by omega)
  have hlen := formLength_cases a.toNat
  exact hform.encodeChar_ofNat (.inl (by omega)) (show 1 ≤ _ by omega)

theorem encodeChar_of_two (hlow : ¬ a.toNat < 0xC2) (ha : a.toNat < 0xE0)
    (hb : isContinuation b = true) :
    encodeChar (Char.ofNat (a.toNat % 32 * 64 + b.toNat % 64)) = [a, b] := by
  have hform : IsForm _ [a, b] := .two (by omega) (isTail_of_isContinuation hb) rfl
  have hlen := formLength_cases (a.toNat % 32 * 64 + b.toNat % 64)
  exact hform.encodeChar_ofNat (.inl (by omega)) (show 2 ≤ _ by omega)

/-- The second byte rules out the halves of pairs and what has a shorter form. -/
theorem encodeChar_of_three (hlow : ¬ a.toNat < 0xE0) (ha : a.toNat < 0xF0)
    (hb : isSecondOfThree a b = true) (hc : isContinuation c = true) :
    encodeChar (Char.ofNat (a.toNat % 16 * 4096 + b.toNat % 64 * 64 + c.toNat % 64)) =
      [a, b, c] := by
  simp only [isSecondOfThree, Bool.and_eq_true, Bool.or_eq_true, bne_iff_ne, decide_eq_true_eq] at hb
  obtain ⟨⟨hb, hshortest⟩, hhalf⟩ := hb
  have hform : IsForm _ [a, b, c] :=
    .three (by omega) (isTail_of_isContinuation hb) (isTail_of_isContinuation hc) rfl
  have htail := isTail_of_isContinuation hb
  unfold IsTail at htail
  have hlen := formLength_cases (a.toNat % 16 * 4096 + b.toNat % 64 * 64 + c.toNat % 64)
  refine hform.encodeChar_ofNat ?_ (show 3 ≤ _ by omega)
  unfold Nat.isValidChar
  omega

/-- The second byte rules out what is beyond the last and what has a shorter form. -/
theorem encodeChar_of_four (hlow : ¬ a.toNat < 0xF0) (ha : a.toNat < 0xF5)
    (hb : isSecondOfFour a b = true) (hc : isContinuation c = true)
    (hd : isContinuation d = true) :
    encodeChar (Char.ofNat (a.toNat % 8 * 262144 + b.toNat % 64 * 4096 + c.toNat % 64 * 64 +
      d.toNat % 64)) = [a, b, c, d] := by
  simp only [isSecondOfFour, Bool.and_eq_true, Bool.or_eq_true, bne_iff_ne, decide_eq_true_eq] at hb
  obtain ⟨⟨hb, hshortest⟩, hlast⟩ := hb
  have hform : IsForm _ [a, b, c, d] := .four (by omega) (isTail_of_isContinuation hb)
    (isTail_of_isContinuation hc) (isTail_of_isContinuation hd) rfl
  have htail := isTail_of_isContinuation hb
  unfold IsTail at htail
  have hlen := formLength_cases (a.toNat % 8 * 262144 + b.toNat % 64 * 4096 + c.toNat % 64 * 64 +
    d.toNat % 64)
  refine hform.encodeChar_ofNat ?_ (show 4 ≤ _ by omega)
  unfold Nat.isValidChar
  omega

end

/-- The bytes of a text that is read are those that were read. -/
theorem encode_of_decodeFrom {pos : Nat} {done : Text} {bytes : List UInt8} {t : Text}
    (h : decodeFrom pos done bytes = .ok t) : ∃ u, t = done.reverse ++ u ∧ encode u = bytes := by
  have hstep : ∀ {c : Char} {done : Text} {form rest : List UInt8}, encodeChar c = form →
      (∃ u, t = (c :: done).reverse ++ u ∧ encode u = rest) →
      ∃ u, t = done.reverse ++ u ∧ encode u = form ++ rest := by
    rintro c done _ _ rfl ⟨u, rfl, rfl⟩
    exact ⟨c :: u, by simp, encode_cons c u⟩
  -- each step reads one character, in one to four bytes, or ends with a fault
  fun_induction decodeFrom pos done bytes
  case case1 =>
    cases h
    exact ⟨[], by simp, rfl⟩
  case case2 ha ih => exact hstep (encodeChar_of_one ha) (ih h)
  case case5 hlow ha b rest hb ih => exact hstep (encodeChar_of_two hlow ha hb) (ih h)
  case case9 hlow ha b hb c rest hc ih => exact hstep (encodeChar_of_three hlow ha hb hc) (ih h)
  case case15 hlow ha b hb c hc d rest hd ih =>
    exact hstep (encodeChar_of_four hlow ha hb hc hd) (ih h)
  all_goals cases h

/-- **Decoding reads the text that has the bytes.** -/
theorem decode?_eq_some_iff {bytes : List UInt8} {t : Text} :
    decode? bytes = some t ↔ encode t = bytes := by
  unfold decode?
  constructor
  · intro h
    cases hd : decode bytes with
    | error fault => simp [hd, Except.toOption] at h
    | ok u =>
      simp only [hd, Except.toOption, Option.some.injEq] at h
      subst h
      obtain ⟨v, rfl, hv⟩ := encode_of_decodeFrom hd
      exact hv
  · rintro rfl
    rw [decode_encode]
    rfl

/-- A character of ASCII is in a text as often as its byte is in the bytes of the text. -/
theorem count_encode {c : Char} (hc : c.toNat < 128) (t : Text) :
    (encode t).count (.ofNat c.toNat) = t.count c := by
  have hbyte : (UInt8.ofNat c.toNat).toNat = c.toNat := by
    rw [UInt8.toNat_ofNat']
    omega
  induction t with
  | nil => rfl
  | cons d t ih =>
    rw [encode_cons, List.count_append, ih]
    by_cases hd : d = c
    · subst hd
      have hform : encodeChar d = [.ofNat d.toNat] := if_pos hc
      rw [hform, List.count_singleton_self, List.count_cons_self, Nat.add_comm]
    · have hno : UInt8.ofNat c.toNat ∉ encodeChar d := by
        intro hm
        have hsame : c.toNat = d.toNat := by
          have := toNat_of_mem_encodeChar hm
          omega
        exact hd (Char.toNat_inj.mp hsame).symm
      rw [List.count_eq_zero.mpr hno, List.count_cons_of_ne hd, Nat.zero_add]

end EnvAudit.Utf8
