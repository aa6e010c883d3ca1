import EnvAudit.Proofs.SecretSpans

/-!
# The order of findings

A run of any pattern, whatever it looks at, stays in its line and never leads back (`stays_run`). So
the hits of any pattern follow one another without overlap (`follow_hits`), and the findings of any
rules are in order: by rule, then by line, then by column.

A rule is applied to each line for itself. So a text may be cut at a line feed, and what each rule
finds in the two parts be put together rule by rule (`detect_rule_by_rule`).
-/
namespace EnvAudit

/-! ## Runs stay in the line -/

namespace Place.IsAt

variable {t : Text} {s : Place} {i : Nat}

theorem exists_next (hs : s.IsAt t i) : ∃ j, s.next.IsAt t j ∧ i ≤ j := by
  by_cases hi : i < t.length
  · exact ⟨i + 1, hs.next hi, Nat.le_succ i⟩
  · have hend : s.after = [] := by rw [hs.after, List.drop_of_length_le (Nat.le_of_not_lt hi)]
    have hsame : s.next = s := by simp only [Place.next, hend]
    exact ⟨i, hsame.symm ▸ hs, Nat.le_refl i⟩

theorem exists_repeat_next (hs : s.IsAt t i) (n : Nat) :
    ∃ j, (Nat.repeat Place.next n s).IsAt t j ∧ i ≤ j := by
  induction n with
  | zero => exact ⟨i, hs, Nat.le_refl i⟩
  | succ n ih =>
    obtain ⟨j, hj, hij⟩ := ih
    obtain ⟨l, hl, hjl⟩ := hj.exists_next
    exact ⟨l, hl, Nat.le_trans hij hjl⟩

end Place.IsAt

namespace Pattern

/-- Whether a matcher goes on from places of the line only that are not before its start. -/
def Stays (t : Text) (m : Place → Continuation → Option Place) : Prop :=
  ∀ {s e : Place} {i : Nat} {k : Continuation}, s.IsAt t i → m s k = some e →
    ∃ r j, r.IsAt t j ∧ i ≤ j ∧ k r = some e

section

variable {t : Text} {s e : Place} {i n : Nat} {k : Continuation}

theorem takeRun_isAt (cls : CharClass) (limit : Option Nat) {b a : Text} {cap : Option Text}
    (hs : (⟨b, a, cap⟩ : Place).IsAt t i) :
    (⟨(takeRun cls limit 0 b a).2.1, (takeRun cls limit 0 b a).2.2, cap⟩ : Place).IsAt t
      (i + (takeRun cls limit 0 b a).1) := by
  induction a generalizing limit b i with
  | nil => exact hs
  | cons c a ih =>
    by_cases hstop : limit = some 0 ∨ cls.accepts c = false
    · rw [takeRun_stop (hstop.imp_right fun hc d hd => by cases hd; exact hc)]
      exact hs
    · rw [not_or, Bool.not_eq_false] at hstop
      have hi : i < t.length := by
        have hlen := hs.length_after
        rw [List.length_cons] at hlen
        omega
      have hrest := ih (limit.map (· - 1)) (hs.next hi)
      rw [takeRun_cons hstop.1 hstop.2]
      rwa [Nat.add_right_comm] at hrest

theorem stays_tryBackwards (hs : s.IsAt t (i + n)) (h : tryBackwards k n s = some e) :
    ∃ r j, r.IsAt t j ∧ i ≤ j ∧ k r = some e := by
  induction n generalizing s with
  | zero => exact ⟨s, i, hs, Nat.le_refl i, h⟩
  | succ n ih =>
    rw [tryBackwards] at h
    split at h
    · rename_i e' hk
      exact ⟨s, _, hs, Nat.le_add_right i _, hk.trans h⟩
    · exact ih hs.back h

theorem stays_tryForwards {cls : CharClass} (hs : s.IsAt t i) (h : tryForwards cls k n s = some e) :
    ∃ r j, r.IsAt t j ∧ i ≤ j ∧ k r = some e := by
  induction n generalizing s i with
  | zero => exact ⟨s, i, hs, Nat.le_refl i, h⟩
  | succ n ih =>
    rw [tryForwards] at h
    split at h
    · rename_i e' hk
      exact ⟨s, i, hs, Nat.le_refl i, hk.trans h⟩
    · obtain ⟨j, hj, hij⟩ := hs.exists_next
      obtain ⟨r, l, hl, hjl, hr⟩ := ih hj h
      exact ⟨r, l, hl, Nat.le_trans hij hjl, hr⟩

/-- Going back from the end of a run stops where the least number of repetitions ends. -/
theorem stays_runOfClass (cls : CharClass) (lo : Nat) (hi : Option Nat) (greedy : Bool) :
    Stays t (runOfClass cls lo hi greedy) := by
  rintro ⟨b, a, cap⟩ e i k hs h
  have hend := takeRun_isAt cls hi hs
  rw [runOfClass] at h
  generalize takeRun cls hi 0 b a = run at h hend
  obtain ⟨n, b', a'⟩ := run
  simp only at h hend
  split at h
  · cases h
  · rename_i hlo
    cases greedy with
    | true =>
      have hback : (⟨b', a', cap⟩ : Place).IsAt t (i + lo + (n - lo)) := by
        rwa [Nat.add_assoc, Nat.add_sub_cancel' (Nat.le_of_not_lt hlo)]
      obtain ⟨r, j, hr, hij, hk⟩ := stays_tryBackwards hback h
      exact ⟨r, j, hr, Nat.le_trans (Nat.le_add_right i lo) hij, hk⟩
    | false =>
      obtain ⟨j, hj, hij⟩ := hs.exists_repeat_next lo
      obtain ⟨r, l, hr, hjl, hk⟩ := stays_tryForwards hj h
      exact ⟨r, l, hr, Nat.le_trans hij hjl, hk⟩

variable {m : Place → Continuation → Option Place}

/-- Two steps that stay, one after the other. -/
theorem Stays.bind (hm : Stays t m) {f : Place → Option Place} (hs : s.IsAt t i)
    (h : m s f = some e)
    (hf : ∀ {r j}, r.IsAt t j → f r = some e → ∃ r' j', r'.IsAt t j' ∧ j ≤ j' ∧ k r' = some e) :
    ∃ r j, r.IsAt t j ∧ i ≤ j ∧ k r = some e := by
  obtain ⟨r, j, hr, hij, hfr⟩ := hm hs h
  obtain ⟨r', j', hr', hjj, hk⟩ := hf hr hfr
  exact ⟨r', j', hr', Nat.le_trans hij hjj, hk⟩

theorem Stays.times (hm : Stays t m) (n : Nat) : Stays t (runTimes m n) := by
  induction n with
  | zero => exact fun {s e i k} hs h => ⟨s, i, hs, Nat.le_refl i, h⟩
  | succ n ih => exact fun {s e i k} hs h => hm.bind hs h fun hr hk => ih hr hk

theorem Stays.more (hm : Stays t m) (greedy : Bool) (n : Nat) : Stays t (runMore m greedy n) := by
  induction n with
  | zero => exact fun {s e i k} hs h => ⟨s, i, hs, Nat.le_refl i, h⟩
  | succ n ih =>
    intro s e i k hs h
    have hagain : ∀ {e}, (m s fun r =>
        if r.after.length < s.after.length then runMore m greedy n r k else k r) = some e →
        ∃ r j, r.IsAt t j ∧ i ≤ j ∧ k r = some e := by
      intro e he
      refine hm.bind hs he fun {r j} hr hk => ?_
      split at hk
      · exact ih hr hk
      · exact ⟨r, j, hr, Nat.le_refl j, hk⟩
    simp only [runMore] at h
    cases greedy with
    | true =>
      simp only [if_true] at h
      split at h
      · rename_i e' he
        exact hagain (he.trans h)
      · exact ⟨s, i, hs, Nat.le_refl i, h⟩
    | false =>
      simp only [Bool.false_eq_true, if_false] at h
      split at h
      · rename_i e' he
        exact ⟨s, i, hs, Nat.le_refl i, he.trans h⟩
      · exact hagain h

theorem isAt_of_dropText? {ignoreCase : Bool} {word : Text} {r : Place} (hs : s.IsAt t i)
    (h : dropText? ignoreCase word s = some r) : ∃ j, r.IsAt t j ∧ i ≤ j := by
  induction word generalizing s i with
  | nil =>
    cases h
    exact ⟨i, hs, Nat.le_refl i⟩
  | cons d word ih =>
    rw [dropText?] at h
    split at h
    · split at h
      · obtain ⟨j, hj, hij⟩ := hs.exists_next
        obtain ⟨l, hl, hjl⟩ := ih hj h
        exact ⟨l, hl, Nat.le_trans hij hjl⟩
      · cases h
    · cases h

/-- **A run of a pattern stays in the line and never leads back.** -/
theorem stays_run (t : Text) (p : Pattern) : Stays t p.run := by
  induction p with
  | empty => exact fun {s e i k} hs h => ⟨s, i, hs, Nat.le_refl i, h⟩
  | one cls =>
    intro s e i k hs h
    simp only [run] at h
    split at h
    · split at h
      · obtain ⟨j, hj, hij⟩ := hs.exists_next
        exact ⟨s.next, j, hj, hij, h⟩
      · cases h
    · cases h
  | seq p q ihp ihq => exact fun {s e i k} hs h => ihp.bind hs h fun hr hk => ihq hr hk
  | alt p q ihp ihq =>
    intro s e i k hs h
    simp only [run] at h
    split at h
    · rename_i e' he
      exact ihp hs (he.trans h)
    · exact ihq hs h
  | many lo hi greedy p ih =>
    rcases Classical.em (∃ cls, p = .one cls) with ⟨cls, rfl⟩ | hone
    · exact stays_runOfClass cls lo hi greedy
    · intro s e i k hs h
      rw [run] at h
      · have hlo : Stays t (runTimes p.run lo) := ih.times lo
        exact hlo.bind hs h fun hr hk => ih.more greedy _ hr hk
      · exact fun cls h => hone ⟨cls, h⟩
  | group p ih =>
    exact fun {s e i k} hs h => ih.bind hs h fun {r j} hr hk =>
      ⟨_, j, hr.withCaptured _, Nat.le_refl j, hk⟩
  | again ignoreCase =>
    intro s e i k hs h
    simp only [run] at h
    split at h
    · cases h
    · split at h
      · rename_i r hr
        obtain ⟨j, hj, hij⟩ := isAt_of_dropText? hs hr
        exact ⟨r, j, hj, hij, h⟩
      · cases h
  | anchor a =>
    intro s e i k hs h
    simp only [run] at h
    split at h
    · exact ⟨s, i, hs, Nat.le_refl i, h⟩
    · cases h
  | ahead negated p ih | behind negated width p ih =>
    intro s e i k hs h
    simp only [run] at h
    split at h <;> split at h
    · cases h
    · exact ⟨_, i, hs.withCaptured _, Nat.le_refl i, h⟩
    · exact ⟨s, i, hs, Nat.le_refl i, h⟩
    · cases h
  | atomic p ih =>
    intro s e i k hs h
    simp only [run] at h
    split at h
    · rename_i r hr
      obtain ⟨r', j, hj, hij, hsome⟩ := ih hs hr
      cases hsome
      exact ⟨r, j, hj, hij, h⟩
    · cases h
  | ifGroup p q ihp ihq =>
    intro s e i k hs h
    simp only [run] at h
    split at h
    · exact ihp hs h
    · exact ihq hs h

end

end Pattern

/-! ## Hits follow one another -/

/-- Whether a hit is a span of a line from a column on. -/
structure Hit.IsFrom (line : Text) (i : Nat) (h : Hit) : Prop where
  startAt : h.start.IsAt line h.span.start
  stopAt : h.stop.IsAt line h.span.stop
  le_start : i ≤ h.span.start
  start_le_stop : h.span.start ≤ h.span.stop

theorem Hit.IsFrom.text_eq {line : Text} {i : Nat} {h : Hit} (hh : h.IsFrom line i) :
    h.text = h.span.text line := hh.startAt.textTo_eq hh.stopAt

namespace Pattern

section

variable {p : Pattern} {line : Text} {i : Nat} {mustMove : Bool}

theorem isFrom_of_run {before after : Text} {e : Place}
    (hs : (⟨before, after, none⟩ : Place).IsAt line i)
    (h : (p.run ⟨before, after, none⟩ fun e =>
      if mustMove && e.after.length == after.length then none else some e) = some e) :
    Hit.IsFrom line i ⟨⟨before, after, none⟩, e⟩ := by
  obtain ⟨r, j, hr, hij, hk⟩ := stays_run line p hs h
  split at hk
  · cases hk
  · cases hk
    have hspan : Hit.span ⟨⟨before, after, none⟩, e⟩ = ⟨i, j⟩ := by
      rw [Hit.span, hs.column_eq, hr.column_eq]
    exact ⟨hspan ▸ hs, hspan ▸ hr, hspan ▸ Nat.le_refl i, hspan ▸ hij⟩

theorem isFrom_find? {before after : Text} {hit : Hit}
    (hs : (⟨before, after, none⟩ : Place).IsAt line i)
    (h : p.find? mustMove before after = some hit) : hit.IsFrom line i := by
  induction after generalizing before i mustMove with
  | nil =>
    rw [find?.eq_def] at h
    simp only at h
    split at h
    · rename_i e hrun
      cases h
      exact isFrom_of_run hs hrun
    · cases h
    · contradiction
  | cons c after ih =>
    rw [find?.eq_def] at h
    simp only at h
    split at h
    · rename_i e hrun
      cases h
      exact isFrom_of_run hs hrun
    · contradiction
    · rename_i heq
      cases heq
      have hi : i < line.length := by
        have hlen := hs.length_after
        rw [List.length_cons] at hlen
        omega
      obtain ⟨hstart, hstop, hle, hle'⟩ := ih (hs.next hi) h
      exact ⟨hstart, hstop, Nat.le_of_succ_le hle, hle'⟩

/-- The hits from a place on are spans of the line, each from where the one before it ends. -/
theorem isFrom_hitsFrom {s : Place} (hs : s.IsAt line i) (fuel : Nat) (mustMove : Bool) :
    (∀ h ∈ p.hitsFrom fuel mustMove s, h.IsFrom line i) ∧
      (p.hitsFrom fuel mustMove s).Pairwise fun a b => a.span.stop ≤ b.span.start := by
  induction fuel generalizing s i mustMove with
  | zero => exact ⟨by simp [hitsFrom], List.Pairwise.nil⟩
  | succ fuel ih =>
    rw [hitsFrom]
    split
    · exact ⟨by simp, List.Pairwise.nil⟩
    · rename_i hit hfind
      have hhit : hit.IsFrom line i := isFrom_find? (hs.withCaptured none) hfind
      obtain ⟨hrest, horder⟩ := ih (hhit.stopAt.withCaptured none) hit.isEmpty
      refine ⟨fun h hh => ?_, List.pairwise_cons.mpr ⟨fun h hh => (hrest h hh).le_start, horder⟩⟩
      rcases List.mem_cons.mp hh with rfl | hh
      · exact hhit
      · obtain ⟨hstart, hstop, hle, hle'⟩ := hrest h hh
        exact ⟨hstart, hstop, Nat.le_trans (Nat.le_trans hhit.le_start hhit.start_le_stop) hle, hle'⟩

end

/-- **The hits of any pattern follow one another** in the line, without overlap. -/
theorem follow_hits (p : Pattern) (line : Text) : (∀ h ∈ p.hits line, h.IsFrom line 0) ∧
    (p.hits line).Pairwise fun a b => a.span.stop ≤ b.span.start :=
  isFrom_hitsFrom ⟨Nat.zero_le _, rfl, rfl⟩ _ false

end Pattern

namespace SecretFinding

/-- The finding in a text that has `n` lines more above it. -/
def movedDown (n : Nat) (f : SecretFinding) : SecretFinding := { f with line := f.line + n }

section

variable (rule : SecretRule) (rules : List SecretRule) (file : Text)

theorem inLine_add (k n : Nat) (line : Text) :
    inLine rule file (k + n) line = (inLine rule file k line).map (movedDown n) := by
  simp [inLine, ofHit, movedDown, Function.comp_def]

theorem inLines_add (k n : Nat) (lines : List Text) :
    inLines rule file (k + n) lines = (inLines rule file k lines).map (movedDown n) := by
  induction lines generalizing k with
  | nil => rfl
  | cons line lines ih =>
    rw [inLines, inLines, List.map_append, inLine_add, Nat.add_right_comm, ih]

theorem inLines_append (k : Nat) (above below : List Text) :
    inLines rule file k (above ++ below) =
      inLines rule file k above ++ inLines rule file (k + above.length) below := by
  induction above generalizing k with
  | nil => rfl
  | cons line above ih =>
    rw [List.cons_append, inLines, inLines, ih, List.append_assoc, List.length_cons,
      Nat.add_assoc k, Nat.add_comm 1]

theorem detect_singleton (content : Text) :
    detect [rule] content file = inLines rule file 1 (Text.lines content) :=
  List.flatMap_singleton ..

/-- **Each rule finds in a text what it finds in the parts.** The text is cut at a line feed. -/
theorem detect_append (above below : Text) :
    detect rules (above ++ '\n' :: below) file = rules.flatMap fun rule =>
      detect [rule] above file ++
        (detect [rule] below file).map (movedDown (Text.lines above).length) := by
  refine List.flatMap_congr fun rule _ => ?_
  rw [detect_singleton, detect_singleton, ← inLines_add, ← inLines_append]
  exact congrArg _ (Text.splitOn_append '\n' above below)

/-- A line has no line feed to be cut at. -/
theorem detect_line {line : Text} (h : '\n' ∉ line) :
    detect [rule] line file = inLine rule file 1 line := by
  rw [detect_singleton, Text.lines, Text.splitOn_of_not_mem h]
  exact List.append_nil _

theorem inLines_eq_flatMap (i : Nat) (lines : List Text) :
    inLines rule file (i + 1) lines =
      (lines.zipIdx i).flatMap fun l => inLine rule file (l.2 + 1) l.1 := by
  induction lines generalizing i with
  | nil => rfl
  | cons line lines ih => rw [inLines, List.zipIdx_cons, List.flatMap_cons, ih]

/-- **Each rule finds in a text what it finds in the lines.** -/
theorem detect_lines (content : Text) :
    detect rules content file = rules.flatMap fun rule =>
      (Text.lines content).zipIdx.flatMap fun l =>
        (detect [rule] l.1 file).map (movedDown l.2) := by
  refine List.flatMap_congr fun rule _ => (inLines_eq_flatMap rule file 0 _).trans ?_
  refine List.flatMap_congr fun l hl => ?_
  have hline : l.1 ∈ Text.lines content := List.mem_of_getElem? (List.mem_zipIdx_iff_getElem?.mp hl)
  rw [detect_line rule file (Text.not_mem_of_mem_splitOn hline), ← inLine_add, Nat.add_comm]

end

/-! ## Findings in order -/

/-- Where a finding comes from: a rule with its position in the list of rules, a line with its number
from zero, and the columns of a hit. -/
structure Origin where
  rank : Nat
  rule : SecretRule
  number : Nat
  line : Text
  span : Span

namespace Origin

/-- The finding, which shows nothing but its rule and its line. -/
def finding (file : Text) (o : Origin) : SecretFinding :=
  ofSpan o.rule file (o.number + 1) o.line o.span

/-- Whether the rules have a hit there. -/
structure IsIn (rules : List SecretRule) (content : Text) (o : Origin) : Prop where
  isRule : rules[o.rank]? = some o.rule
  isLine : (Text.lines content)[o.number]? = some o.line
  isHit : o.span ∈ (o.rule.hits o.line).map Hit.span

/-- The order of findings: by rule, then by line, then by column and without overlap. -/
def Before (o o' : Origin) : Prop :=
  o.rank < o'.rank ∨ o.rank = o'.rank ∧
    (o.number < o'.number ∨ o.number = o'.number ∧ o.span.stop ≤ o'.span.start)

/-- All origins of findings, in order. -/
def all (rules : List SecretRule) (content : Text) : List Origin :=
  rules.zipIdx.flatMap fun r => (Text.lines content).zipIdx.flatMap fun l =>
    (r.1.hits l.1).map fun hit => ⟨r.2, r.1, l.2, l.1, hit.span⟩

theorem mem_all {rules : List SecretRule} {content : Text} {o : Origin} :
    o ∈ all rules content ↔ o.IsIn rules content := by
  simp only [all, List.mem_flatMap, List.mem_map]
  constructor
  · rintro ⟨r, hr, l, hl, hit, hhit, rfl⟩
    exact ⟨List.mem_zipIdx_iff_getElem?.mp hr, List.mem_zipIdx_iff_getElem?.mp hl,
      List.mem_map_of_mem hhit⟩
  · rintro ⟨hr, hl, hhit⟩
    obtain ⟨hit, hhit, hspan⟩ := List.mem_map.mp hhit
    exact ⟨(o.rule, o.rank), List.mem_zipIdx_iff_getElem?.mpr hr, (o.line, o.number),
      List.mem_zipIdx_iff_getElem?.mpr hl, hit, hhit, by rw [hspan]⟩

theorem pairwise_zipIdx {α : Type} (xs : List α) : xs.zipIdx.Pairwise fun x y => x.2 < y.2 := by
  rw [← List.pairwise_map, List.zipIdx_map_snd]
  exact List.pairwise_lt_range'

theorem pairwise_all (rules : List SecretRule) (content : Text) :
    (all rules content).Pairwise Before := by
  refine List.pairwise_flatMap.mpr ⟨fun r _ => ?_, (pairwise_zipIdx rules).imp fun hr => ?_⟩
  · refine List.pairwise_flatMap.mpr ⟨fun l _ => ?_, (pairwise_zipIdx _).imp fun hl => ?_⟩
    · refine List.pairwise_map.mpr ((Pattern.follow_hits r.1.pattern l.1).2.imp fun h => ?_)
      exact .inr ⟨rfl, .inr ⟨rfl, h⟩⟩
    · simp only [List.mem_map]
      rintro o ⟨hit, -, rfl⟩ o' ⟨hit', -, rfl⟩
      exact .inr ⟨rfl, .inl hl⟩
  · simp only [List.mem_flatMap, List.mem_map]
    rintro o ⟨l, -, hit, -, rfl⟩ o' ⟨l', -, hit', -, rfl⟩
    exact .inl hr

/-- The findings are those of the origins in order. -/
theorem detect_eq_map_finding (rules : List SecretRule) (content file : Text) :
    detect rules content file = (all rules content).map (finding file) := by
  have hrules : detect rules content file =
      rules.zipIdx.flatMap fun r => inLines r.1 file 1 (Text.lines content) := by
    conv_lhs => rw [detect, ← List.zipIdx_map_fst 0 rules, List.flatMap_map]
  rw [hrules, all, List.map_flatMap]
  refine List.flatMap_congr fun r _ => (inLines_eq_flatMap r.1 file 0 _).trans ?_
  rw [List.map_flatMap]
  refine List.flatMap_congr fun l _ => ?_
  rw [inLine, List.map_map]
  refine List.map_congr_left fun hit hhit => ?_
  rw [ofHit, ((Pattern.follow_hits r.1.pattern l.1).1 hit hhit).text_eq]
  rfl

theorem IsIn.isSpan {rules : List SecretRule} {content : Text} {o : Origin}
    (h : o.IsIn rules content) : o.span.start ≤ o.span.stop ∧ o.span.stop ≤ o.line.length := by
  obtain ⟨hit, hhit, hspan⟩ := List.mem_map.mp h.isHit
  have hfrom := (Pattern.follow_hits o.rule.pattern o.line).1 hit hhit
  rw [← hspan]
  exact ⟨hfrom.start_le_stop, hfrom.stopAt.le⟩

end Origin

/-- **Findings are local to rules and to lines.** In a text that is cut at a line feed each rule, one
after the other, finds what it finds alone in the part above, and then what it finds alone in the
part below, with the lines counted on. Likewise each rule finds what it finds in each line alone. So
every finding comes from a span of one line, and findings are in order: by rule, then by line, then
by column. -/
theorem detect_rule_by_rule (rules : List SecretRule) (file : Text) :
    (∀ above below : Text, detect rules (above ++ '\n' :: below) file =
      rules.flatMap fun rule => detect [rule] above file ++
        (detect [rule] below file).map (movedDown (Text.lines above).length)) ∧
    ∀ content : Text,
      (detect rules content file = rules.flatMap fun rule =>
        (Text.lines content).zipIdx.flatMap fun l =>
          (detect [rule] l.1 file).map (movedDown l.2)) ∧
      ∃ origins : List Origin, detect rules content file = origins.map (Origin.finding file) ∧
        (∀ o, o ∈ origins ↔ o.IsIn rules content) ∧
        (∀ o ∈ origins, o.span.start ≤ o.span.stop ∧ o.span.stop ≤ o.line.length) ∧
        origins.Pairwise Origin.Before := by
  refine ⟨detect_append rules file, fun content => ⟨detect_lines rules file content, ?_⟩⟩
  exact ⟨Origin.all rules content, Origin.detect_eq_map_finding rules content file,
    fun o => Origin.mem_all, fun o ho => (Origin.mem_all.mp ho).isSpan,
    Origin.pairwise_all rules content⟩

/-- Two rules in a text of two lines: the first rule reports both lines before the second does. -/
example : (detect [SecretRule.genericSecret, SecretRule.databaseConnection]
      "pwd=mysql://a\npwd=mysql://b".toList "a.py".toList).map (fun f => (f.confidence, f.line)) =
    [(.medium, 1), (.medium, 2), (.high, 1), (.high, 2)] := by
  decide +kernel

end SecretFinding
end EnvAudit
