import EnvAudit.Pattern.CharClass

/-!
# Characters without case

The tables of letters name no character that stands before the first capital. So a digit, a blank or
a sign such as the equals sign is matched by itself alone when case is ignored
(`eq_of_mem_caseVariants`).
-/
namespace EnvAudit

/-- Whether a character does not stand before the first capital. The null character is left out, for
it also stands for code points that are no characters. -/
def isFromCapitals (c : Char) : Bool := 65 ≤ c.toNat || c.toNat == 0

theorem isFromCapitals_ofNat {n : Nat} (h : 65 ≤ n) : isFromCapitals (Char.ofNat n) = true := by
  by_cases hv : n.isValidChar
  · rw [Char.ofNat, dif_pos hv]
    change (decide (65 ≤ n) || n == 0) = true
    rw [decide_eq_true h, Bool.true_or]
  · rw [Char.ofNat, dif_neg hv]
    rfl

/-! ## The tables -/

theorem caseRuns_from_capitals :
    ∀ r ∈ caseRuns, 65 ≤ r.first ∧ 65 ≤ (r.first : Int) + r.shift := by
  decide +kernel

theorem letterGroups_from_capitals : letterGroups.all (·.all isFromCapitals) = true := by
  decide +kernel

theorem ascii_from_capitals : ∀ n < 128,
    ((Char.ofNat n).isLower = true → isFromCapitals (Char.ofNat n).toUpper = true) ∧
      (asciiCaseVariants (Char.ofNat n)).all (fun v => isFromCapitals v || v == Char.ofNat n) := by
  decide +kernel

/-! ## Variants -/

theorem isFromCapitals_lowerOne {c : Char} (h : 128 ≤ c.toNat) :
    isFromCapitals (lowerOne c) = true := by
  rw [lowerOne, if_neg (by omega)]
  split
  · rfl
  split
  · rfl
  split
  · rename_i r hr
    obtain ⟨-, hshift⟩ := caseRuns_from_capitals r (List.mem_of_find?_eq_some hr)
    have hcov := List.find?_some hr
    simp only [CaseRun.covers, Bool.and_eq_true, decide_eq_true_eq] at hcov
    exact isFromCapitals_ofNat (by omega)
  · simp only [isFromCapitals, Bool.or_eq_true, decide_eq_true_eq]
    omega

theorem isFromCapitals_letterGroup {c v : Char} (hc : isFromCapitals c = true)
    (h : v ∈ letterGroup c) : isFromCapitals v = true := by
  rw [letterGroup] at h
  cases hg : letterGroups.find? (·.contains c) with
  | none =>
    rw [hg] at h
    rwa [List.mem_singleton.mp h]
  | some g =>
    rw [hg] at h
    have hall := List.all_eq_true.mp letterGroups_from_capitals g (List.mem_of_find?_eq_some hg)
    exact List.all_eq_true.mp hall v h

theorem isFromCapitals_capitalsOf {c v : Char} (h : v ∈ capitalsOf c) :
    isFromCapitals v = true := by
  rcases List.mem_append.mp h with h | h
  · split at h
    · simp only [List.mem_cons, List.not_mem_nil, or_false] at h
      rcases h with rfl | rfl <;> rfl
    split at h
    · obtain rfl := List.mem_singleton.mp h
      rfl
    split at h
    · rename_i hl
      obtain rfl := List.mem_singleton.mp h
      have hlow : c.toNat < 128 := by
        have hz : c.val ≤ 'z'.val := of_decide_eq_true (Bool.and_eq_true_iff.mp hl).2
        exact Nat.lt_of_le_of_lt (UInt32.le_iff_toNat_le.mp hz) (by decide)
      have hup := (ascii_from_capitals c.toNat hlow).1
      rw [Char.ofNat_toNat] at hup
      exact hup hl
    · cases h
  · obtain ⟨r, hr, rfl⟩ := List.mem_map.mp h
    obtain ⟨hr, hcov⟩ := List.mem_filter.mp hr
    obtain ⟨hfirst, -⟩ := caseRuns_from_capitals r hr
    simp only [CaseRun.covers, Bool.and_eq_true, decide_eq_true_eq] at hcov
    exact isFromCapitals_ofNat (by omega)

/-- **A character before the letters differs from no other in case only.** -/
theorem eq_of_mem_caseVariants {c v : Char} (h : v ∈ caseVariants c)
    (hv : isFromCapitals v = false) : v = c := by
  rw [caseVariants] at h
  split at h
  · rename_i hc
    have hall := (ascii_from_capitals c.toNat hc).2
    rw [Char.ofNat_toNat] at hall
    simpa [hv] using List.all_eq_true.mp hall v h
  · rename_i hc
    rcases List.mem_cons.mp h with rfl | h
    · rfl
    · obtain ⟨x, hx, h⟩ := List.mem_flatMap.mp h
      have hcap : isFromCapitals v = true := by
        rcases List.mem_cons.mp h with rfl | h
        · exact isFromCapitals_letterGroup (isFromCapitals_lowerOne (by omega)) hx
        · exact isFromCapitals_capitalsOf h
      rw [hv] at hcap
      cases hcap

/-- The class of a sign, too, has no other character when case is ignored. -/
theorem CharClass.eq_of_accepts_single {d c : Char} (hd : isFromCapitals d = false)
    (h : { CharClass.single d with ignoreCase := true }.accepts c = true) : d = c := by
  refine eq_of_mem_caseVariants (List.contains_iff_mem.mp ?_) hd
  simpa [CharClass.accepts, CharClass.names, CharClass.single, ClassItem.coversAnyCase] using h

/-- Nor has a class of signs. -/
theorem CharClass.mem_of_accepts_chars {ds : Text} (hds : ∀ d ∈ ds, isFromCapitals d = false)
    {c : Char}
    (h : { items := ds.map ClassItem.char, ignoreCase := true : CharClass }.accepts c = true) :
    c ∈ ds := by
  simp only [CharClass.accepts, CharClass.names, if_true, Bool.bne_false, List.any_map,
    List.any_eq_true] at h
  obtain ⟨d, hd, hc⟩ := h
  obtain rfl := eq_of_mem_caseVariants (List.contains_iff_mem.mp hc) (hds d hd)
  exact hd

end EnvAudit
