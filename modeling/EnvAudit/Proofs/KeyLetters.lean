import EnvAudit.Proofs.CaseVariants
import EnvAudit.Dotenv.Entry

/-!
# Letters of keys

A key is matched without regard to case, so some letters beyond ASCII are letters of keys. By the
tables of letters these are four: the dotted capital i, the dotless i, the long s, and the Kelvin
sign (`isKeyLetter_iff`). No character but itself counts as an underscore, a digit or a sign, so the
classes of characters that a key is written with name what `isKeyStart` and `isKeyChar` say.
-/
namespace EnvAudit

/-! ## Letters of keys -/

/-- The letters beyond ASCII that are letters of ASCII when case is ignored: the dotted capital i,
the dotless i, the long s, and the Kelvin sign. -/
def lookAlikes : List Char := ['\u0130', '\u0131', '\u017F', '\u212A']

/-- The capitals of ASCII are one run. Beyond them no capital but the Kelvin sign has its small letter
in ASCII, and none has the dotless i or the long s for its small letter. -/
theorem caseRuns_ascii_or : ∀ r ∈ caseRuns,
    (r.first = 65 ∧ r.last = 90 ∧ r.shift = 32) ∨ (r.first = 0x212A ∧ r.last = 0x212A) ∨
      (128 ≤ r.first ∧ 128 ≤ (r.first : Int) + r.shift ∧
        ((r.last : Int) + r.shift < 0x131 ∨ 0x131 < (r.first : Int) + r.shift) ∧
        ((r.last : Int) + r.shift < 0x17F ∨ 0x17F < (r.first : Int) + r.shift)) := by
  decide +kernel

theorem letterGroups_ascii :
    letterGroups.all (fun g => g.all fun x => decide (128 ≤ x.toNat) ||
      g.all fun y => y == x || y.toNat == 0x131 || y.toNat == 0x17F) = true := by
  rfl

/-- A code point that is no character gives the null character. -/
theorem toNat_ofNat_or (n : Nat) : (Char.ofNat n).toNat = n ∨ (Char.ofNat n).toNat = 0 := by
  by_cases hv : n.isValidChar
  · exact .inl (congrArg Char.toNat (dif_pos hv))
  · exact .inr (congrArg Char.toNat (dif_neg hv))

theorem isLower_iff {c : Char} : c.isLower = true ↔ 97 ≤ c.toNat ∧ c.toNat ≤ 122 := by
  change (decide (97 ≤ c.val) && decide (c.val ≤ 122)) = true ↔ _
  rw [Bool.and_eq_true, decide_eq_true_eq, decide_eq_true_eq]
  exact and_congr UInt32.le_iff_toNat_le UInt32.le_iff_toNat_le

theorem isUpper_iff {c : Char} : c.isUpper = true ↔ 65 ≤ c.toNat ∧ c.toNat ≤ 90 := by
  change decide (65 ≤ c.val ∧ c.val ≤ 90) = true ↔ _
  rw [decide_eq_true_eq]
  exact and_congr UInt32.le_iff_toNat_le UInt32.le_iff_toNat_le

section

variable {c v x y : Char}

theorem mem_letterGroup (h : x ∈ letterGroup y) (hx : x.toNat < 128) :
    y = x ∨ y.toNat = 0x131 ∨ y.toNat = 0x17F := by
  rw [letterGroup] at h
  cases hg : letterGroups.find? (·.contains y) with
  | none =>
    rw [hg] at h
    exact .inl (List.mem_singleton.mp h).symm
  | some g =>
    rw [hg] at h
    have hy : y ∈ g := by simpa using List.find?_some hg
    have hgroup := List.all_eq_true.mp letterGroups_ascii g (List.mem_of_find?_eq_some hg)
    have hx' := List.all_eq_true.mp hgroup x h
    rw [Bool.or_eq_true, decide_eq_true_eq, or_iff_right (by omega)] at hx'
    simpa [or_assoc] using List.all_eq_true.mp hx' y hy

/-- Few characters beyond ASCII have a small letter that counts as one of ASCII. -/
theorem mem_lookAlikes_of_lowerOne (hc : 128 ≤ c.toNat)
    (h : (65 ≤ (lowerOne c).toNat ∧ (lowerOne c).toNat < 128) ∨ (lowerOne c).toNat = 0x131 ∨
      (lowerOne c).toNat = 0x17F) : c ∈ lookAlikes := by
  have hmem : ∀ d ∈ lookAlikes, c.toNat = d.toNat → c ∈ lookAlikes := by
    intro d hd heq
    rwa [Char.toNat_inj.mp heq]
  rw [lowerOne, if_neg (by omega)] at h
  split at h
  · rename_i hi
    exact hmem '\u0130' (by decide) (congrArg Char.toNat hi)
  split at h
  · exact absurd h (by decide)
  split at h
  · rename_i r hr
    have hrun := List.mem_of_find?_eq_some hr
    have hcov := List.find?_some hr
    simp only [CaseRun.covers, Bool.and_eq_true, decide_eq_true_eq] at hcov
    rcases caseRuns_ascii_or r hrun with ⟨-, hlast, -⟩ | ⟨hfirst, hlast⟩ | ⟨-, hlow, hdotless, hlong⟩
    · omega
    · exact hmem '\u212A' (by decide) (show c.toNat = 0x212A by omega)
    · generalize hn : Int.toNat (c.toNat + r.shift) = n at h
      rcases toNat_ofNat_or n with hto | hto <;> rw [hto] at h <;> omega
  · rcases h with h | h | h
    · omega
    · exact hmem '\u0131' (by decide) h
    · exact hmem '\u017F' (by decide) h

/-- A capital of ASCII has its small letter in ASCII. -/
theorem isLower_of_mem_capitalsOf (h : v ∈ capitalsOf x) (hv : 65 ≤ v.toNat ∧ v.toNat < 128) :
    x.isLower = true := by
  rcases List.mem_append.mp h with h | h
  · split at h
    · rename_i hx
      rw [hx]
      rfl
    split at h
    · obtain rfl := List.mem_singleton.mp h
      exact absurd hv (by decide)
    split at h
    · assumption
    · cases h
  · obtain ⟨r, hr, rfl⟩ := List.mem_map.mp h
    obtain ⟨hr, hcov⟩ := List.mem_filter.mp hr
    simp only [CaseRun.covers, Bool.and_eq_true, decide_eq_true_eq] at hcov
    generalize hn : Int.toNat (x.toNat - r.shift) = n at hv hcov
    rw [isLower_iff]
    rcases toNat_ofNat_or n with hto | hto
    · rw [hto] at hv
      rcases caseRuns_ascii_or r hr with ⟨-, hlast, hshift⟩ | ⟨hfirst, -⟩ | ⟨hfirst, -⟩ <;> omega
    · omega

/-- Few characters beyond ASCII differ from one of ASCII in case only. -/
theorem mem_lookAlikes_of_mem_caseVariants (hc : 128 ≤ c.toNat) (h : v ∈ caseVariants c)
    (hv : 65 ≤ v.toNat ∧ v.toNat < 128) : c ∈ lookAlikes := by
  rw [caseVariants, if_neg (by omega)] at h
  rcases List.mem_cons.mp h with rfl | h
  · omega
  obtain ⟨x, hx, h⟩ := List.mem_flatMap.mp h
  have hascii : 65 ≤ x.toNat ∧ x.toNat < 128 := by
    rcases List.mem_cons.mp h with rfl | h
    · exact hv
    · have hlow := isLower_iff.mp (isLower_of_mem_capitalsOf h hv)
      omega
  refine mem_lookAlikes_of_lowerOne hc ?_
  rcases mem_letterGroup hx hascii.2 with rfl | h
  · exact .inl hascii
  · exact .inr h

end

/-- Whether a character is a letter of keys just if it is a letter of ASCII or a look-alike, and has
an underscore among its variants just if it is one. -/
def isPlainVariant (c : Char) : Bool :=
  EnvEntry.isKeyLetter c == (c.isAlpha || lookAlikes.contains c) &&
    (caseVariants c).contains '_' == (c == '_')

theorem isPlainVariant_ascii : ((List.range 128).map Char.ofNat).all isPlainVariant = true := by
  rfl

theorem isPlainVariant_lookAlikes : lookAlikes.all isPlainVariant = true := by
  rfl

theorem isPlainVariant_all (c : Char) : isPlainVariant c = true := by
  by_cases hc : c.toNat < 128
  · have hmem : c ∈ (List.range 128).map Char.ofNat :=
      List.mem_map.mpr ⟨c.toNat, List.mem_range.mpr hc, Char.ofNat_toNat c⟩
    exact List.all_eq_true.mp isPlainVariant_ascii c hmem
  -- beyond ASCII all but the look-alikes have no variant in it
  by_cases hlook : c ∈ lookAlikes
  · exact List.all_eq_true.mp isPlainVariant_lookAlikes c hlook
  have halpha : c.isAlpha = false := by
    rw [Bool.eq_false_iff]
    intro h
    rcases Bool.or_eq_true_iff.mp h with h | h
    · rw [isUpper_iff] at h
      omega
    · rw [isLower_iff] at h
      omega
  have hletter : EnvEntry.isKeyLetter c = false := by
    rw [EnvEntry.isKeyLetter, List.any_eq_false]
    intro v hv hcap
    have hup : v.isUpper = true := by
      simp only [Bool.and_eq_true, decide_eq_true_eq] at hcap
      exact decide_eq_true hcap
    rw [isUpper_iff] at hup
    exact hlook (mem_lookAlikes_of_mem_caseVariants (by omega) hv (by omega))
  have hunder : '_' ∉ caseVariants c := fun h =>
    hlook (mem_lookAlikes_of_mem_caseVariants (by omega) h (by decide))
  have hne : (c == '_') = false := by
    rw [beq_eq_false_iff_ne]
    rintro rfl
    exact hc (by decide)
  simp [isPlainVariant, halpha, hlook, hletter, hunder, hne]

/-- **The letters of keys** are those of ASCII and their four look-alikes. -/
theorem isKeyLetter_iff {c : Char} :
    EnvEntry.isKeyLetter c = true ↔ c.isAlpha = true ∨ c ∈ lookAlikes := by
  have h := (Bool.and_eq_true_iff.mp (isPlainVariant_all c)).1
  rw [beq_iff_eq] at h
  simp [h]

theorem EnvEntry.isKeyChar_of_isKeyStart {c : Char} (h : isKeyStart c = true) :
    isKeyChar c = true := by
  rw [isKeyChar, h, Bool.true_or]

/-! ## Classes without case -/

theorem contains_caseVariants {c d : Char} (hd : isFromCapitals d = false) :
    (caseVariants c).contains d = (c == d) := by
  rw [Bool.eq_iff_iff, List.contains_iff_mem, beq_iff_eq]
  constructor
  · exact fun h => (eq_of_mem_caseVariants h hd).symm
  · rintro rfl
    exact self_mem_caseVariants c

theorem contains_caseVariants_underscore (c : Char) :
    (caseVariants c).contains '_' = (c == '_') :=
  beq_iff_eq.mp (Bool.and_eq_true_iff.mp (isPlainVariant_all c)).2

namespace CharClass

open EnvEntry

variable (c : Char)

theorem accepts_blank : accepts { items := [.blank], ignoreCase := true } c = isBlank c := by
  simp [accepts, names, ClassItem.coversAnyCase, ClassItem.covers]

theorem accepts_equals : accepts { items := [.char '='], ignoreCase := true } c = (c == '=') := by
  simp only [accepts, names, ClassItem.coversAnyCase, if_true, List.any_cons, List.any_nil,
    Bool.or_false, Bool.bne_false]
  exact contains_caseVariants rfl

theorem accepts_inLine :
    accepts { items := [.char '\n'], negated := true, ignoreCase := true } c = (c != '\n') := by
  simp only [accepts, names, ClassItem.coversAnyCase, if_true, List.any_cons, List.any_nil,
    Bool.or_false, Bool.bne_true]
  exact congrArg Bool.not (contains_caseVariants rfl)

theorem accepts_keyStart :
    accepts { items := [.range 'A' 'Z', .char '_'], ignoreCase := true } c = isKeyStart c := by
  simp only [accepts, names, ClassItem.coversAnyCase, if_true, List.any_cons, List.any_nil,
    Bool.or_false, Bool.bne_false, contains_caseVariants_underscore]
  rfl

theorem accepts_keyChar :
    accepts { items := [.range 'A' 'Z', .range '0' '9', .char '_'], ignoreCase := true } c =
      isKeyChar c := by
  have hdigit : (caseVariants c).any (ClassItem.range '0' '9').covers = isAsciiDigit c := by
    rw [Bool.eq_iff_iff, List.any_eq_true]
    constructor
    · rintro ⟨v, hv, hdigit⟩
      have hlow : isFromCapitals v = false := by
        simp only [ClassItem.covers, Bool.and_eq_true, decide_eq_true_eq] at hdigit
        have hrange : 48 ≤ v.toNat ∧ v.toNat ≤ 57 := hdigit
        simp only [isFromCapitals, Bool.or_eq_false_iff, decide_eq_false_iff_not, beq_eq_false_iff_ne]
        omega
      rwa [eq_of_mem_caseVariants hv hlow] at hdigit
    · exact fun h => ⟨c, self_mem_caseVariants c, h⟩
  have hstart := accepts_keyStart c
  simp only [accepts, names, ClassItem.coversAnyCase, if_true, List.any_cons, List.any_nil,
    Bool.or_false, Bool.bne_false] at hstart ⊢
  rw [hdigit, isKeyChar, ← hstart, Bool.or_assoc, Bool.or_comm (isAsciiDigit c)]

end CharClass

end EnvAudit
