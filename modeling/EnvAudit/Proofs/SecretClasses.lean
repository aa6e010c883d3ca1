import EnvAudit.Proofs.KeyLetters
import EnvAudit.Secret.Registry

/-!
# Characters of secrets

The patterns of secrets ignore case. So the four look-alikes of letters are among the letters of their
classes too, while a sign, a digit or white space is matched by itself alone. The classes of
base64 characters and of values are thereby known character by character (`accepts_base64`,
`accepts_value`).
-/
namespace EnvAudit

/-! ## Signs -/

/-- Whether a character of ASCII is neither a letter nor the null character. -/
def isSign (d : Char) : Bool := decide (0 < d.toNat) && decide (d.toNat < 128) && !d.isAlpha

theorem isSign_ascii : (List.range 128).all (fun n =>
    (asciiCaseVariants (Char.ofNat n)).all fun v => !isSign v || v == Char.ofNat n) = true := by
  decide +kernel

theorem isSign_lookAlikes :
    lookAlikes.all (fun c => (caseVariants c).all fun v => !isSign v) = true := by
  decide +kernel

/-- **A sign differs from no other character in case only.** -/
theorem contains_caseVariants_sign {c d : Char} (hd : isSign d = true) :
    (caseVariants c).contains d = (c == d) := by
  rw [Bool.eq_iff_iff, List.contains_iff_mem, beq_iff_eq]
  refine ⟨fun h => ?_, fun h => h ▸ self_mem_caseVariants c⟩
  by_cases hc : c.toNat < 128
  · rw [caseVariants, if_pos hc] at h
    have hascii := List.all_eq_true.mp isSign_ascii c.toNat (List.mem_range.mpr hc)
    rw [Char.ofNat_toNat, List.all_eq_true] at hascii
    have hvariant := hascii d h
    rw [hd] at hvariant
    exact (beq_iff_eq.mp hvariant).symm
  · have hrange := hd
    simp only [isSign, Bool.and_eq_true, decide_eq_true_eq] at hrange
    by_cases hlow : 65 ≤ d.toNat
    · have hlook := mem_lookAlikes_of_mem_caseVariants (Nat.le_of_not_lt hc) h ⟨hlow, hrange.1.2⟩
      have hnone := List.all_eq_true.mp (List.all_eq_true.mp isSign_lookAlikes c hlook) d h
      rw [hd] at hnone
      cases hnone
    · refine (eq_of_mem_caseVariants h ?_).symm
      simp only [isFromCapitals, Bool.or_eq_false_iff, decide_eq_false_iff_not, beq_eq_false_iff_ne]
      omega

/-! ## Letters and digits -/

/-- Whether a character is a letter or a digit of ASCII or looks like such a letter. -/
def isAlphanumeric (c : Char) : Bool := c.isAlphanum || lookAlikes.contains c

section

open SecretRule ClassItem

variable {c : Char}

theorem coversAnyCase_capitals : capitals.coversAnyCase c = (c.isAlpha || lookAlikes.contains c) := by
  have hkey : capitals.coversAnyCase c = EnvEntry.isKeyLetter c := rfl
  rw [hkey, Bool.eq_iff_iff, isKeyLetter_iff, Bool.or_eq_true, List.contains_iff_mem]

/-- Small letters are matched by no more than capitals are. -/
theorem coversAnyCase_smallLetters (h : smallLetters.coversAnyCase c = true) :
    (c.isAlpha || lookAlikes.contains c) = true := by
  obtain ⟨v, hv, hsmall⟩ := List.any_eq_true.mp h
  have hrange : 97 ≤ v.toNat ∧ v.toNat ≤ 122 := by simpa [covers] using hsmall
  rw [Bool.or_eq_true, List.contains_iff_mem]
  by_cases hc : c.toNat < 128
  · left
    rw [caseVariants, if_pos hc, asciiCaseVariants] at hv
    split at hv
    · assumption
    · obtain rfl := List.mem_singleton.mp hv
      exact Bool.or_eq_true_iff.mpr (.inr (isLower_iff.mpr hrange))
  · exact .inr (mem_lookAlikes_of_mem_caseVariants (Nat.le_of_not_lt hc) hv (by omega))

theorem eq_of_mem_caseVariants_sign {v : Char} (hv : v ∈ caseVariants c) (hsign : isSign v = true) :
    v = c := by
  have h := contains_caseVariants_sign (c := c) hsign
  rw [List.contains_iff_mem.mpr hv] at h
  exact (beq_iff_eq.mp h.symm).symm

theorem isDigit_iff : c.isDigit = true ↔ 48 ≤ c.toNat ∧ c.toNat ≤ 57 := by
  change (decide (48 ≤ c.val) && decide (c.val ≤ 57)) = true ↔ _
  rw [Bool.and_eq_true, decide_eq_true_eq, decide_eq_true_eq]
  exact and_congr UInt32.le_iff_toNat_le UInt32.le_iff_toNat_le

theorem isSign_of_isDigit (h : c.isDigit = true) : isSign c = true := by
  rw [isDigit_iff] at h
  have halpha : c.isAlpha = false := by
    change (c.isUpper || c.isLower) = false
    rw [Bool.or_eq_false_iff, Bool.eq_false_iff, Bool.eq_false_iff, ne_eq, ne_eq, isUpper_iff,
      isLower_iff]
    omega
  rw [isSign, halpha, decide_eq_true (by omega), decide_eq_true (by omega)]
  rfl

theorem coversAnyCase_digits : digits.coversAnyCase c = c.isDigit := by
  rw [Bool.eq_iff_iff]
  constructor
  · intro h
    obtain ⟨v, hv, hdigit⟩ := List.any_eq_true.mp h
    have hrange : 48 ≤ v.toNat ∧ v.toNat ≤ 57 := by simpa [covers] using hdigit
    have hsign := isSign_of_isDigit (isDigit_iff.mpr hrange)
    exact eq_of_mem_caseVariants_sign hv hsign ▸ isDigit_iff.mpr hrange
  · intro h
    refine List.any_eq_true.mpr ⟨c, self_mem_caseVariants c, ?_⟩
    simpa [covers] using isDigit_iff.mp h

/-- Signs are matched by themselves alone. -/
theorem any_coversAnyCase_signs {signs : Text} (hs : signs.all isSign = true) (c : Char) :
    (signs.map ClassItem.char).any (·.coversAnyCase c) = signs.contains c := by
  rw [Bool.eq_iff_iff, List.any_eq_true, List.contains_iff_mem]
  constructor
  · rintro ⟨item, hitem, h⟩
    obtain ⟨d, hd, rfl⟩ := List.mem_map.mp hitem
    exact eq_of_mem_caseVariants_sign (List.contains_iff_mem.mp h) (List.all_eq_true.mp hs d hd) ▸ hd
  · exact fun h => ⟨.char c, List.mem_map_of_mem h,
      List.contains_iff_mem.mpr (self_mem_caseVariants c)⟩

/-- **A class of signs, without regard to case.** -/
theorem accepts_signs {signs : Text} (hs : signs.all isSign = true) (c : Char) :
    CharClass.accepts { items := signs.map .char, ignoreCase := true } c = signs.contains c := by
  rw [← any_coversAnyCase_signs hs c]
  exact Bool.bne_false _

/-- **A class of letters, digits and signs, without regard to case.** -/
theorem accepts_alphanumerics {signs : Text} (hs : signs.all isSign = true) (c : Char) :
    CharClass.accepts { items := alphanumerics ++ signs.map .char, ignoreCase := true } c =
      (isAlphanumeric c || signs.contains c) := by
  have hletters : alphanumerics.any (·.coversAnyCase c) = isAlphanumeric c := by
    have hsmall : smallLetters.coversAnyCase c = true → capitals.coversAnyCase c = true :=
      fun h => coversAnyCase_capitals ▸ coversAnyCase_smallLetters h
    simp only [alphanumerics, List.any_cons, List.any_nil, Bool.or_false]
    rw [← Bool.or_assoc, ← Bool.eq_self_or.mpr hsmall, coversAnyCase_capitals,
      coversAnyCase_digits, isAlphanumeric, Char.isAlphanum, Bool.or_right_comm]
  simp only [CharClass.accepts, CharClass.names, if_true, List.any_append,
    any_coversAnyCase_signs hs, hletters, Bool.bne_false]

/-- A character of base64, or one that differs from it in case only. -/
def SecretRule.isBase64Char (c : Char) : Bool := isAlphanumeric c || ['+', '/'].contains c

/-- A character of a value: a letter or a digit, also a look-alike, or one of the signs, among which
are both quotes. -/
def SecretRule.isValueChar (c : Char) : Bool :=
  isAlphanumeric c || "!@#$%^&*()_+-=[]\x7b\x7d;':\"\\|,.<>/?".toList.contains c

theorem accepts_base64 (c : Char) :
    CharClass.accepts { items := base64Chars, ignoreCase := true } c = isBase64Char c :=
  accepts_alphanumerics (by decide +kernel) c

theorem accepts_value (c : Char) :
    CharClass.accepts { items := valueChars, ignoreCase := true } c = isValueChar c :=
  accepts_alphanumerics (by decide +kernel) c

end

end EnvAudit
