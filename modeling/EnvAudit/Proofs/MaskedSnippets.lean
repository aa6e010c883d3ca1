import EnvAudit.Proofs.SecretSpans
import Mathlib.Data.List.Forall2

/-!
# What a snippet gives away

A secret of more than eight characters is shown as a mask of itself (`IsMaskOf`): its length, its
first four characters and its last two, and nothing else. All shorter ones are shown as one marker,
which is no mask. So two secrets are shown alike exactly if both are short, or if both are long and
agree in what a mask keeps (`redact_eq_iff`).

No rule of the registry matches fewer than nine characters, so the snippet of every finding is a mask
of the matched text and the marker never shows (`snippets_masked`). The shortest match is that of a
connection string, one character above what is hidden as a whole.
-/
namespace EnvAudit

/-! ## Masks -/

namespace Redaction

/-- Whether a text is a mask of a secret: as long as the secret, with its first four and its last two
characters, and the mask character in place of every other. -/
structure IsMaskOf (shown value : Text) : Prop where
  length_eq : shown.length = value.length
  head_eq : shown.take 4 = value.take 4
  tail_eq : shown.drop (shown.length - 2) = value.drop (value.length - 2)
  hidden : ∀ i, 4 ≤ i → i < shown.length - 2 → shown[i]? = some mask

variable {shown v w : Text}

theorem redact_of_long (h : 8 < v.length) :
    redact v = v.take 4 ++ (List.replicate (v.length - 6) mask ++ v.drop (v.length - 2)) := by
  have hlong : ¬ v.length ≤ shortLength := Nat.not_le.mpr h
  rw [redact, if_neg hlong, Nat.sub_sub, List.append_assoc]
  rfl

/-- **A long secret is shown as a mask of itself.** -/
theorem isMaskOf_redact (h : 8 < v.length) : IsMaskOf (redact v) v := by
  have hlen : (redact v).length = v.length := length_redact h
  have hhead : (v.take 4).length = 4 := by
    rw [List.length_take]
    omega
  have hmiddle : (v.take 4 ++ List.replicate (v.length - 6) mask).length = v.length - 2 := by
    rw [List.length_append, hhead, List.length_replicate]
    omega
  refine ⟨hlen, ?_, ?_, fun i hfour hi => ?_⟩
  · rw [redact_of_long h, List.take_left' hhead]
  · rw [hlen, redact_of_long h, ← List.append_assoc, List.drop_left' hmiddle]
  · rw [hlen] at hi
    rw [redact_of_long h, List.getElem?_append_right (by omega), hhead,
      List.getElem?_append_left (by rw [List.length_replicate]; omega),
      List.getElem?_replicate_of_lt (by omega)]

/-- What a mask keeps is known from the mask. -/
theorem IsMaskOf.agree (hv : IsMaskOf shown v) (hw : IsMaskOf shown w) :
    v.length = w.length ∧ v.take 4 = w.take 4 ∧
      v.drop (v.length - 2) = w.drop (w.length - 2) :=
  ⟨hv.length_eq.symm.trans hw.length_eq, hv.head_eq.symm.trans hw.head_eq,
    hv.tail_eq.symm.trans hw.tail_eq⟩

/-- The marker shows a letter where a mask hides one. -/
theorem IsMaskOf.ne_marker (h : IsMaskOf shown v) (hlong : 8 < v.length) : shown ≠ marker := by
  rintro rfl
  have hfifth := h.hidden 4 (Nat.le_refl 4) (by rw [h.length_eq]; omega)
  revert hfifth
  decide

theorem redact_eq_marker_iff : redact v = marker ↔ v.length ≤ 8 := by
  refine ⟨fun h => ?_, redact_of_short⟩
  by_contra hlong
  exact (isMaskOf_redact (Nat.lt_of_not_le hlong)).ne_marker (Nat.lt_of_not_le hlong) h

theorem redact_congr (hv : 8 < v.length) (hlen : v.length = w.length)
    (hhead : v.take 4 = w.take 4) (htail : v.drop (v.length - 2) = w.drop (w.length - 2)) :
    redact v = redact w := by
  rw [redact_of_long hv, redact_of_long (hlen ▸ hv), hhead, htail, hlen]

/-- **What is shown of a secret gives away its length, its head and its tail, and nothing else.** Two
secrets are shown alike exactly if both have at most eight characters, or both have more and agree in
their length, their first four characters and their last two. Only those of at most eight characters
are shown as the marker. -/
theorem redact_eq_iff (v w : Text) :
    (redact v = redact w ↔
      (v.length ≤ 8 ∧ w.length ≤ 8) ∨
        (8 < v.length ∧ 8 < w.length ∧ v.length = w.length ∧ v.take 4 = w.take 4 ∧
          v.drop (v.length - 2) = w.drop (w.length - 2))) ∧
      (redact v = marker ↔ v.length ≤ 8) := by
  refine ⟨⟨fun h => ?_, ?_⟩, redact_eq_marker_iff⟩
  · have hshort : v.length ≤ 8 ↔ w.length ≤ 8 := by
      rw [← redact_eq_marker_iff, ← redact_eq_marker_iff, h]
    rcases Nat.lt_or_ge 8 v.length with hv | hv
    · have hw : 8 < w.length := by omega
      have hmask := isMaskOf_redact hv
      rw [h] at hmask
      exact .inr ⟨hv, hw, hmask.agree (isMaskOf_redact hw)⟩
    · exact .inl ⟨hv, hshort.mp hv⟩
  · rintro (⟨hv, hw⟩ | ⟨hv, -, hlen, hhead, htail⟩)
    · rw [redact_of_short hv, redact_of_short hw]
    · exact redact_congr hv hlen hhead htail

end Redaction

/-! ## Snippets of findings -/

namespace SecretFinding

/-- The texts that rules match in a text, in the order of the findings. -/
def matchedTexts (rules : List SecretRule) (content : Text) : List Text :=
  rules.flatMap fun rule => (Text.lines content).flatMap fun line =>
    (rule.hits line).map Hit.text

/-- No rule of the registry matches fewer than nine characters. -/
theorem registry_widths : ∀ rule ∈ SecretRule.registry, 9 ≤ (rule.pattern.width (0, none)).1 := by
  decide

theorem length_text_of_hit {rule : SecretRule} (hr : rule ∈ SecretRule.registry) {line : Text}
    {hit : Hit} (hh : hit ∈ rule.hits line) : 9 ≤ hit.text.length := by
  obtain ⟨hp, hw⟩ := registry_patterns rule hr
  have hin := ((cover_hits hp hw line).isIn hit hh).1
  have hwidth := (Pattern.width_of_matches hin.isMatch (0, none)).1
  have hleast := registry_widths rule hr
  have hstop := hin.stopAt.le
  rw [hin.text_eq, Span.text, List.length_take, List.length_drop]
  omega

/-- Whether a finding shows the text that was matched as a mask of it, never as the marker. -/
structure Masks (f : SecretFinding) (matched : Text) : Prop where
  isLong : 9 ≤ matched.length
  isMask : Redaction.IsMaskOf f.snippet matched
  ne_marker : f.snippet ≠ Redaction.marker

theorem masks_ofHit {rule : SecretRule} (hr : rule ∈ SecretRule.registry) {line : Text} {hit : Hit}
    (hh : hit ∈ rule.hits line) (file : Text) (n : Nat) :
    (ofHit rule file n line hit).Masks hit.text := by
  have hlong := length_text_of_hit hr hh
  have hmask := Redaction.isMaskOf_redact hlong
  exact ⟨hlong, hmask, hmask.ne_marker hlong⟩

theorem masks_inLines {rule : SecretRule} (hr : rule ∈ SecretRule.registry) (file : Text) (n : Nat)
    (lines : List Text) :
    List.Forall₂ Masks (inLines rule file n lines)
      (lines.flatMap fun line => (rule.hits line).map Hit.text) := by
  induction lines generalizing n with
  | nil => exact .nil
  | cons line lines ih =>
    refine List.rel_append ?_ (ih (n + 1))
    rw [inLine, List.forall₂_map_left_iff, List.forall₂_map_right_iff, List.forall₂_same]
    exact fun hit hh => masks_ofHit hr hh file n

/-- **Every snippet is a mask of what was matched.** The findings of any rules of the registry in a
text are those of the matched texts, in order. Each of these has at least nine characters, and its
finding shows as many: the first four, the last two, and the mask character everywhere between. No
finding shows the marker of a short secret. -/
theorem snippets_masked {rules : List SecretRule} (hrules : ∀ rule ∈ rules, rule ∈ SecretRule.registry)
    (content file : Text) :
    List.Forall₂ Masks (detect rules content file) (matchedTexts rules content) := by
  induction rules with
  | nil => exact .nil
  | cons rule rules ih =>
    rw [List.forall_mem_cons] at hrules
    exact List.rel_append (masks_inLines hrules.1 file 1 _) (ih hrules.2)

/-- The shortest address of a database that a rule matches has just three characters hidden. -/
theorem snippets_masked_shortest :
    matchedTexts [SecretRule.databaseConnection] "mysql://a".toList = ["mysql://a".toList] ∧
      (detect [SecretRule.databaseConnection] "mysql://a".toList "a.py".toList).map (·.snippet) =
        ["mysq***/a".toList] ∧
      List.Forall₂ Masks
        (detect [SecretRule.databaseConnection] "mysql://a".toList "a.py".toList)
        (matchedTexts [SecretRule.databaseConnection] "mysql://a".toList) := by
  refine ⟨by decide +kernel, by decide +kernel, snippets_masked ?_ _ _⟩
  simp [SecretRule.registry]

end SecretFinding
end EnvAudit
