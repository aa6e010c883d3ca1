import EnvAudit.Proofs.PatternLanguage
import EnvAudit.Secret.Finding
import Mathlib.Data.List.Nodup

/-!
# Where secrets are found

A search goes from hit to hit: it takes the leftmost match behind the last one. For a regular
pattern that always takes something, `cover_hits` says that the hits are matches, that they do not
overlap, and that every column where the pattern matches at all lies in one of them.

The rules of the registry have such patterns (`registry_patterns`), so the findings of a rule in a
line are those of a list of spans that miss no occurrence (`findings_cover_matches`).
-/
namespace EnvAudit

/-- A run of neighbouring columns of a line. -/
structure Span where
  start : Nat
  stop : Nat
deriving DecidableEq, Repr

/-- The text in a span of a line. -/
def Span.text (line : Text) (s : Span) : Text := (line.drop s.start).take (s.stop - s.start)

/-- Whether a span holds a text of the line that the pattern matches there. -/
structure Span.IsMatch (p : Pattern) (line : Text) (s : Span) : Prop where
  nonempty : s.start < s.stop
  inLine : s.stop ≤ line.length
  isMatch : p.Matches line s.start s.stop

/-- The columns of a hit. -/
def Hit.span (h : Hit) : Span := ⟨h.start.column, h.stop.column⟩

/-- Whether the places of a hit are those of a match in a line. -/
structure Hit.IsIn (p : Pattern) (line : Text) (h : Hit) : Prop where
  startAt : h.start.IsAt line h.span.start
  stopAt : h.stop.IsAt line h.span.stop
  isMatch : p.Matches line h.span.start h.span.stop

theorem Hit.IsIn.text_eq {p : Pattern} {line : Text} {h : Hit} (hh : h.IsIn p line) :
    h.text = h.span.text line := hh.startAt.textTo_eq hh.stopAt

open Pattern

/-! ## From hit to hit -/

section

variable {p : Pattern} {line : Text}

/-- A search tries a column, and if there is no match the next. -/
theorem find?_atColumn (p : Pattern) {i : Nat} (hi : i ≤ line.length) :
    p.find? false (line.take i).reverse (line.drop i) =
      match p.run (.atColumn line i) some with
      | some e => some ⟨.atColumn line i, e⟩
      | none =>
        if i < line.length then p.find? false (line.take (i + 1)).reverse (line.drop (i + 1))
        else none := by
  rw [Pattern.find?.eq_def]
  simp only [Bool.false_and, Bool.false_eq_true, if_false]
  rw [← Place.atColumn.eq_def]
  cases p.run (.atColumn line i) some with
  | some e => rfl
  | none =>
    by_cases h : i < line.length
    · rw [if_pos h, List.drop_eq_getElem_cons h, List.take_succ_eq_append_getElem h,
        List.reverse_append]
      rfl
    · rw [if_neg h, List.drop_of_length_le (by omega)]

theorem isIn_of_isAt {s e : Place} {i j : Nat} (hs : s.IsAt line i) (he : e.IsAt line j)
    (hm : p.Matches line i j) : Hit.IsIn p line ⟨s, e⟩ := by
  have hspan : Hit.span ⟨s, e⟩ = ⟨i, j⟩ := by rw [Hit.span, hs.column_eq, he.column_eq]
  refine ⟨?_, ?_, ?_⟩ <;> rw [hspan] <;> assumption

/-- A search from a column yields a match that no other starts before, or there is none. -/
theorem find?_cases (hp : p.isRegular = true) {i : Nat} (hi : i ≤ line.length) :
    (p.find? false (line.take i).reverse (line.drop i) = none ∧
      ∀ k j, i ≤ k → k ≤ line.length → ¬ p.Matches line k j) ∨
    ∃ h, p.find? false (line.take i).reverse (line.drop i) = some h ∧ h.IsIn p line ∧
      i ≤ h.span.start ∧ ∀ k j, i ≤ k → k < h.span.start → ¬ p.Matches line k j := by
  have hs := Place.isAt_atColumn hi
  obtain ⟨hnone, hsome⟩ := run_some_iff hp hs
  rw [find?_atColumn p hi]
  cases hr : p.run (.atColumn line i) some with
  | some e =>
    obtain ⟨j, he, hm⟩ := hsome e hr
    have hstart : (Hit.span ⟨.atColumn line i, e⟩).start = i := hs.column_eq
    refine .inr ⟨_, rfl, isIn_of_isAt hs he hm, Nat.le_of_eq hstart.symm, fun k j hik hk => ?_⟩
    rw [hstart] at hk
    omega
  | none =>
    have hno : ∀ j, ¬ p.Matches line i j := fun j hj => hnone.mp hr ⟨j, hj⟩
    by_cases hlt : i < line.length
    · simp only [if_pos hlt]
      rcases find?_cases hp (i := i + 1) hlt with ⟨hf, hall⟩ | ⟨h, hf, hin, hle, hall⟩
      · refine .inl ⟨hf, fun k j hik hk => ?_⟩
        rcases Nat.eq_or_lt_of_le hik with rfl | hik
        · exact hno j
        · exact hall k j hik hk
      · refine .inr ⟨h, hf, hin, by omega, fun k j hik hk => ?_⟩
        rcases Nat.eq_or_lt_of_le hik with rfl | hik
        · exact hno j
        · exact hall k j hik hk
    · refine .inl ⟨if_neg hlt, fun k j hik hk => ?_⟩
      obtain rfl : i = k := by omega
      exact hno j
termination_by line.length - i

/-- Whether hits are matches one behind the other that miss no match from a column on. -/
structure Cover (p : Pattern) (line : Text) (i : Nat) (hs : List Hit) : Prop where
  isIn : ∀ h ∈ hs, h.IsIn p line ∧ i ≤ h.span.start
  ordered : hs.Pairwise fun a b => a.span.stop ≤ b.span.start
  complete : ∀ k j, i ≤ k → p.Matches line k j → ∃ h ∈ hs, h.span.start ≤ k ∧ k < h.span.stop

/-- A match of a pattern that always takes something is not empty. -/
theorem lt_of_matches (hw : 0 < (p.width (0, none)).1) {i j : Nat} (h : p.Matches line i j) :
    i < j := by
  have := (width_of_matches h (0, none)).1
  omega

theorem Hit.IsIn.isEmpty_eq_false (hw : 0 < (p.width (0, none)).1) {h : Hit}
    (hin : h.IsIn p line) : h.isEmpty = false := by
  have hlt := lt_of_matches hw hin.isMatch
  have hstop := hin.stopAt.le
  rw [Hit.isEmpty, hin.text_eq, Span.text]
  refine List.isEmpty_eq_false_iff.mpr (List.ne_nil_of_length_pos ?_)
  rw [List.length_take, List.length_drop]
  omega

/-- Behind a leftmost match the search goes on, so the columns before the next match are in the
match or are no start of one. -/
theorem Cover.cons (hw : 0 < (p.width (0, none)).1) {i : Nat} {h : Hit} {hs : List Hit}
    (hin : h.IsIn p line) (hi : i ≤ h.span.start)
    (hleft : ∀ k j, i ≤ k → k < h.span.start → ¬ p.Matches line k j)
    (hc : Cover p line h.span.stop hs) : Cover p line i (h :: hs) := by
  have hlt := lt_of_matches hw hin.isMatch
  refine ⟨?_, ?_, ?_⟩
  · intro g hg
    rcases List.mem_cons.mp hg with rfl | hg
    · exact ⟨hin, hi⟩
    · obtain ⟨hgin, hle⟩ := hc.isIn g hg
      exact ⟨hgin, by omega⟩
  · exact List.pairwise_cons.mpr ⟨fun g hg => (hc.isIn g hg).2, hc.ordered⟩
  · intro k j hik hm
    by_cases hk : k < h.span.stop
    · have hge : h.span.start ≤ k := Nat.le_of_not_lt fun hk => hleft k j hik hk hm
      exact ⟨h, List.mem_cons_self, hge, hk⟩
    · obtain ⟨g, hg, hgk⟩ := hc.complete k j (by omega) hm
      exact ⟨g, List.mem_cons_of_mem _ hg, hgk⟩

/-- Every hit takes a character, so there is fuel for as many hits as there are characters. -/
theorem cover_hitsFrom (hp : p.isRegular = true) (hw : 0 < (p.width (0, none)).1) {fuel i : Nat}
    (hi : i ≤ line.length) (hf : line.length - i < fuel) :
    Cover p line i (p.hitsFrom fuel false (.atColumn line i)) := by
  induction fuel generalizing i with
  | zero => omega
  | succ fuel ih =>
    rcases find?_cases hp hi with ⟨hn, hall⟩ | ⟨h, hs, hin, hle, hleft⟩
    · simp only [hitsFrom, Place.atColumn, hn]
      refine ⟨by simp, .nil, fun k j hik hm => ?_⟩
      have hk := lt_length_of_matches hm (lt_of_matches hw hm)
      exact absurd hm (hall k j hik (Nat.le_of_lt hk))
    · have hlt := lt_of_matches hw hin.isMatch
      have hstop := hin.stopAt.le
      have hempty := hin.isEmpty_eq_false hw
      simp only [hitsFrom, Place.atColumn, hs, hempty, hin.stopAt.before, hin.stopAt.after]
      exact .cons hw hin hle hleft (ih hstop (by omega))

/-- **The hits of a regular pattern that always takes something are its leftmost matches.** -/
theorem cover_hits (hp : p.isRegular = true) (hw : 0 < (p.width (0, none)).1) (line : Text) :
    Cover p line 0 (p.hits line) :=
  cover_hitsFrom hp hw (Nat.zero_le _) (by omega)

/-- The spans of the hits are matches. -/
theorem isMatch_span (hw : 0 < (p.width (0, none)).1) {h : Hit} (hin : h.IsIn p line) :
    h.span.IsMatch p line :=
  ⟨lt_of_matches hw hin.isMatch, hin.stopAt.le, hin.isMatch⟩

end

/-! ## The rules -/

/-- Every rule of the registry reads its line alone and always takes something. -/
theorem registry_patterns : ∀ rule ∈ SecretRule.registry,
    rule.pattern.isRegular = true ∧ 0 < (rule.pattern.width (0, none)).1 := by
  decide

theorem registry_labels_nodup : (SecretRule.registry.map (·.label)).Nodup := by
  decide

/-- A rule is known by its label. -/
theorem SecretRule.eq_of_label {rule other : SecretRule} (hr : rule ∈ registry)
    (ho : other ∈ registry) (h : rule.label = other.label) : rule = other :=
  List.inj_on_of_nodup_map registry_labels_nodup hr ho h

/-! ## The findings of a rule in a line -/

namespace SecretFinding

/-- The finding for a span of a line. -/
def ofSpan (rule : SecretRule) (file : Text) (number : Nat) (line : Text) (s : Span) :
    SecretFinding where
  rule := rule.label
  file := file
  line := number
  snippet := Redaction.redact (s.text line)
  confidence := rule.confidence
  remediation := rule.remediation
  context := (Text.strip line).take maxContext

theorem mem_inLine {rule : SecretRule} {file line : Text} {n : Nat} {f : SecretFinding}
    (h : f ∈ inLine rule file n line) : f.rule = rule.label ∧ f.line = n := by
  obtain ⟨hit, -, rfl⟩ := List.mem_map.mp h
  exact ⟨rfl, rfl⟩

theorem mem_inLines {rule : SecretRule} {file : Text} {lines : List Text} {n : Nat}
    {f : SecretFinding} (h : f ∈ inLines rule file n lines) :
    f.rule = rule.label ∧ (n : Int) ≤ f.line := by
  induction lines generalizing n with
  | nil => simp [inLines] at h
  | cons line lines ih =>
    rcases List.mem_append.mp h with h | h
    · obtain ⟨hr, hl⟩ := mem_inLine h
      exact ⟨hr, by omega⟩
    · obtain ⟨hr, hl⟩ := ih h
      exact ⟨hr, by omega⟩

theorem filter_inLine_self (rule : SecretRule) (file line : Text) (n : Nat) :
    (inLine rule file n line).filter (fun f => f.line == (n : Int)) = inLine rule file n line := by
  refine List.filter_eq_self.mpr fun f hf => ?_
  rw [(mem_inLine hf).2, beq_self_eq_true]

theorem filter_inLine_of_ne (rule : SecretRule) (file line : Text) {n m : Nat} (h : n ≠ m) :
    (inLine rule file n line).filter (fun f => f.line == (m : Int)) = [] := by
  refine List.filter_eq_nil_iff.mpr fun f hf he => ?_
  have hl := (mem_inLine hf).2
  have hm := beq_iff_eq.mp he
  omega

theorem filter_inLines_of_lt (rule : SecretRule) (file : Text) (lines : List Text) {n m : Nat}
    (h : m < n) : (inLines rule file n lines).filter (fun f => f.line == (m : Int)) = [] := by
  refine List.filter_eq_nil_iff.mpr fun f hf he => ?_
  have hl := (mem_inLines hf).2
  have hm := beq_iff_eq.mp he
  omega

/-- A line keeps its own findings. -/
theorem filter_inLines {rule : SecretRule} {file line : Text} {lines : List Text} {i : Nat} (n : Nat)
    (h : lines[i]? = some line) :
    (inLines rule file n lines).filter (fun f => f.line == ((n + i : Nat) : Int)) =
      inLine rule file (n + i) line := by
  induction lines generalizing n i with
  | nil => simp at h
  | cons l lines ih =>
    rw [inLines, List.filter_append]
    cases i with
    | zero =>
      obtain rfl : l = line := Option.some.inj h
      rw [Nat.add_zero, filter_inLine_self, filter_inLines_of_lt _ _ _ (Nat.lt_succ_self n),
        List.append_nil]
    | succ i =>
      rw [filter_inLine_of_ne _ _ _ (by omega), List.nil_append,
        show n + (i + 1) = n + 1 + i by omega]
      exact ih (n + 1) h

theorem filter_inLines_self (rule : SecretRule) (file : Text) (n : Nat) (lines : List Text) :
    (inLines rule file n lines).filter (fun f => f.rule == rule.label) =
      inLines rule file n lines := by
  refine List.filter_eq_self.mpr fun f hf => ?_
  rw [(mem_inLines hf).1, beq_self_eq_true]

theorem filter_inLines_of_label_ne {rule other : SecretRule} (h : other.label ≠ rule.label)
    (file : Text) (n : Nat) (lines : List Text) :
    (inLines other file n lines).filter (fun f => f.rule == rule.label) = [] := by
  refine List.filter_eq_nil_iff.mpr fun f hf he => h ?_
  rw [← (mem_inLines hf).1, beq_iff_eq.mp he]

/-- A rule keeps its own findings, if no other has its label. -/
theorem filter_detect {rules : List SecretRule} (hnd : (rules.map (·.label)).Nodup)
    {rule : SecretRule} (hr : rule ∈ rules) (content file : Text) :
    (detect rules content file).filter (fun f => f.rule == rule.label) =
      inLines rule file 1 (Text.lines content) := by
  obtain ⟨before, after, rfl⟩ := List.append_of_mem hr
  have hne : ∀ other ∈ before ++ after, other.label ≠ rule.label := by
    rw [List.map_append, List.map_cons, List.nodup_append] at hnd
    obtain ⟨-, hafter, hbefore⟩ := hnd
    intro other ho he
    rcases List.mem_append.mp ho with ho | ho
    · exact hbefore _ (List.mem_map_of_mem ho) _ List.mem_cons_self he
    · refine (List.nodup_cons.mp hafter).1 ?_
      rw [← he]
      exact List.mem_map_of_mem ho
  have hnil : ∀ rules' : List SecretRule, (∀ other ∈ rules', other.label ≠ rule.label) →
      (detect rules' content file).filter (fun f => f.rule == rule.label) = [] := by
    intro rules' hall
    rw [detect, List.filter_flatMap, List.flatMap_eq_nil_iff]
    exact fun other ho => filter_inLines_of_label_ne (hall other ho) file 1 _
  rw [detect_append_rules, ← List.singleton_append, detect_append_rules, List.filter_append,
    List.filter_append, hnil before fun o ho => hne o (List.mem_append_left _ ho),
    hnil after fun o ho => hne o (List.mem_append_right _ ho), List.nil_append, List.append_nil,
    detect, List.flatMap_singleton, filter_inLines_self]

theorem inLine_eq_map_ofSpan {rule : SecretRule} {line : Text}
    (h : ∀ hit ∈ rule.hits line, hit.IsIn rule.pattern line) (file : Text) (n : Nat) :
    inLine rule file n line = ((rule.hits line).map Hit.span).map (ofSpan rule file n line) := by
  rw [List.map_map]
  refine List.map_congr_left fun hit hh => ?_
  rw [ofHit, (h hit hh).text_eq]
  rfl

/-- The findings of a rule in a line are those of the spans of its hits. -/
theorem filter_detect_line {rule : SecretRule} (hr : rule ∈ SecretRule.registry)
    (content file : Text) {i : Nat} {line : Text} (hl : (Text.lines content)[i]? = some line) :
    (detect SecretRule.registry content file).filter
        (fun f => f.rule == rule.label && f.line == ((i + 1 : Nat) : Int)) =
      ((rule.hits line).map Hit.span).map (ofSpan rule file (i + 1) line) := by
  obtain ⟨hp, hw⟩ := registry_patterns rule hr
  have hc := cover_hits hp hw line
  simp only [Bool.and_comm (_ == rule.label)]
  rw [← List.filter_filter, filter_detect registry_labels_nodup hr, Nat.add_comm,
    filter_inLines 1 hl, inLine_eq_map_ofSpan fun hit hh => (hc.isIn hit hh).1]

theorem mem_inLine_iff_detect {rule : SecretRule} (hr : rule ∈ SecretRule.registry)
    (content file : Text) {i : Nat} {line : Text} (hl : (Text.lines content)[i]? = some line)
    {f : SecretFinding} :
    f ∈ inLine rule file (i + 1) line ↔ f ∈ detect SecretRule.registry content file ∧
      f.rule = rule.label ∧ f.line = ((i + 1 : Nat) : Int) := by
  rw [Nat.add_comm i 1, ← filter_inLines 1 hl, ← filter_detect registry_labels_nodup hr,
    List.mem_filter, List.mem_filter, beq_iff_eq, beq_iff_eq, and_assoc]

/-- **A rule has a finding in a line exactly if its pattern matches there.** -/
theorem exists_finding_iff {rule : SecretRule} (hr : rule ∈ SecretRule.registry)
    (content file : Text) {i : Nat} {line : Text} (hl : (Text.lines content)[i]? = some line) :
    (∃ f ∈ detect SecretRule.registry content file,
        f.rule = rule.label ∧ f.line = ((i + 1 : Nat) : Int)) ↔
      ∃ column stop, rule.pattern.Matches line column stop := by
  obtain ⟨hp, hw⟩ := registry_patterns rule hr
  have hc := cover_hits hp hw line
  constructor
  · rintro ⟨f, hf⟩
    obtain ⟨hit, hh, -⟩ := List.mem_map.mp ((mem_inLine_iff_detect hr content file hl).mpr hf)
    exact ⟨_, _, (hc.isIn hit hh).1.isMatch⟩
  · rintro ⟨column, stop, hm⟩
    obtain ⟨hit, hh, -⟩ := hc.complete column stop (Nat.zero_le _) hm
    exact ⟨_, (mem_inLine_iff_detect hr content file hl).mp (List.mem_map_of_mem hh)⟩

/-- **The findings of a rule in a line miss no occurrence.** They are those of a list of spans, in
order: each holds a match of the rule's pattern, they follow one another without overlap, and every
column where the pattern matches lies in one of them. -/
theorem findings_cover_matches {rule : SecretRule} (hr : rule ∈ SecretRule.registry)
    (content file : Text) {i : Nat} {line : Text} (hl : (Text.lines content)[i]? = some line) :
    ∃ spans : List Span,
      (detect SecretRule.registry content file).filter
          (fun f => f.rule == rule.label && f.line == ((i + 1 : Nat) : Int)) =
        spans.map (ofSpan rule file (i + 1) line) ∧
      (∀ s ∈ spans, s.IsMatch rule.pattern line) ∧
      spans.Pairwise (fun a b => a.stop ≤ b.start) ∧
      ∀ column stop, rule.pattern.Matches line column stop →
        ∃ s ∈ spans, s.start ≤ column ∧ column < s.stop := by
  obtain ⟨hp, hw⟩ := registry_patterns rule hr
  have hc := cover_hits hp hw line
  have hin : ∀ hit ∈ rule.hits line, hit.IsIn rule.pattern line := fun hit hh => (hc.isIn hit hh).1
  refine ⟨(rule.hits line).map Hit.span, ?_, ?_, ?_, ?_⟩
  · simp only [Bool.and_comm (_ == rule.label)]
    rw [← List.filter_filter, filter_detect registry_labels_nodup hr, Nat.add_comm,
      filter_inLines 1 hl, inLine_eq_map_ofSpan hin]
  · intro s hs
    obtain ⟨hit, hh, rfl⟩ := List.mem_map.mp hs
    exact isMatch_span hw (hin hit hh)
  · exact List.pairwise_map.mpr hc.ordered
  · intro column stop hm
    obtain ⟨hit, hh, hcol⟩ := hc.complete column stop (Nat.zero_le _) hm
    exact ⟨hit.span, List.mem_map_of_mem hh, hcol⟩

/-- A line with two addresses of databases. -/
def addressLine : Text := "mysql://u postgres://v".toList

/-- Both addresses in the second line of a text are found. -/
theorem findings_two_addresses :
    ∃ spans : List Span,
      (detect SecretRule.registry ('\n' :: addressLine) "a.py".toList).filter
          (fun f => f.rule == SecretRule.databaseConnection.label && f.line == ((1 + 1 : Nat) : Int)) =
        spans.map (ofSpan SecretRule.databaseConnection "a.py".toList 2 addressLine) ∧
      (∀ s ∈ spans, s.IsMatch SecretRule.databaseConnection.pattern addressLine) ∧
      spans.Pairwise (fun a b => a.stop ≤ b.start) ∧
      ∀ column ∈ [0, 10], ∃ s ∈ spans, s.start ≤ column ∧ column < s.stop := by
  have hrule : SecretRule.databaseConnection ∈ SecretRule.registry := by simp [SecretRule.registry]
  have hline : (Text.lines ('\n' :: addressLine))[1]? = some addressLine := by decide
  obtain ⟨spans, hf, hm, ho, hc⟩ :=
    findings_cover_matches hrule ('\n' :: addressLine) "a.py".toList hline
  have hrun : ∀ column ∈ [0, 10], column ≤ addressLine.length ∧
      (SecretRule.databaseConnection.pattern.run (.atColumn addressLine column) some).isSome := by
    decide
  refine ⟨spans, hf, hm, ho, fun column hcol => ?_⟩
  obtain ⟨hle, hsome⟩ := hrun column hcol
  obtain ⟨e, he⟩ := Option.isSome_iff_exists.mp hsome
  obtain ⟨stop, -, hmatch⟩ := (run_some_iff (by decide) (Place.isAt_atColumn hle)).2 e he
  exact hc column stop hmatch

end SecretFinding
end EnvAudit
