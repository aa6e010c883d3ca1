import EnvAudit.ContentScan
import EnvAudit.Proofs.PaddedLine
import Mathlib.Data.List.Forall2

/-!
# White space at the ends of lines

A scan does not see the white space at the two ends of a line: the patterns of all rules ignore it,
and what a finding shows of a line is stripped first. So a text and the same text with its lines
padded have the same findings and usages (`scan_ignores_line_edges`). A carriage return before each
line feed is such padding.
-/
namespace EnvAudit

open Pattern

/-! ## Padded texts -/

namespace Text

/-- Whether the second line is the first with white space put at its ends. -/
def Pads (line line' : Text) : Prop :=
  ∃ front back, (∀ c ∈ front, isBlank c = true) ∧ (∀ c ∈ back, isBlank c = true) ∧
    line' = front ++ line ++ back

/-- Whether the second text is the first with white space put at the ends of its lines. -/
def PadsLines (t t' : Text) : Prop := List.Forall₂ Pads (lines t) (lines t')

/-- The text with the line ends of other systems: a carriage return before each line feed. -/
def withReturns (t : Text) : Text := replaceChar '\n' "\r\n".toList t

theorem withReturns_cons_of_ne {c : Char} (h : c ≠ '\n') (t : Text) :
    withReturns (c :: t) = c :: withReturns t := by
  simp [withReturns, replaceChar, h]

theorem withReturns_lineFeed (t : Text) : withReturns ('\n' :: t) = '\r' :: '\n' :: withReturns t :=
  rfl

/-- Each line but the last one gets a carriage return. -/
theorem lines_withReturns (t : Text) :
    List.Forall₂ (fun line line' => line' = line ∨ line' = line ++ ['\r']) (lines t)
      (lines (withReturns t)) := by
  induction t with
  | nil => exact .cons (.inl rfl) .nil
  | cons c t ih =>
    by_cases h : c = '\n'
    · subst h
      have hfeed : lines ('\r' :: '\n' :: withReturns t) = ['\r'] :: lines (withReturns t) :=
        splitOn_append_sep (p := ['\r']) (by decide) (withReturns t)
      rw [withReturns_lineFeed, hfeed, lines, splitOn_cons_self]
      exact .cons (.inr rfl) ih
    · obtain ⟨p, ps, hs, hc⟩ := splitOn_cons_of_ne h t
      obtain ⟨q, qs, hs', hc'⟩ := splitOn_cons_of_ne h (withReturns t)
      rw [lines, hs, lines, hs', List.forall₂_cons] at ih
      rw [withReturns_cons_of_ne h, lines, hc, lines, hc']
      refine .cons (ih.1.imp (fun hq => ?_) fun hq => ?_) ih.2
      · rw [hq]
      · rw [hq, List.cons_append]

theorem padsLines_withReturns (t : Text) : PadsLines t (withReturns t) := by
  refine (lines_withReturns t).imp fun line line' h => ?_
  rcases h with rfl | rfl
  · exact ⟨[], [], by simp, by simp, by simp⟩
  · exact ⟨[], ['\r'], by simp, List.all_eq_true.mp (by decide), by simp⟩

end Text

/-! ## The rules -/

theorem ignoresPadding_registry : ∀ rule ∈ SecretRule.registry, rule.pattern.IgnoresPadding := by
  have hall : ∀ rule ∈ SecretRule.registry,
      rule.pattern.isSolid = true ∧ rule.pattern.looksInside = true := by
    decide +kernel
  intro rule hr
  exact ⟨(registry_patterns rule hr).1, (hall rule hr).1, (hall rule hr).2⟩

theorem AccessRule.ignoresPadding_registry : ∀ rule ∈ registry, rule.pattern.IgnoresPadding := by
  have hall : ∀ rule ∈ registry, rule.pattern.isRegular = true ∧ rule.pattern.isSolid = true ∧
      rule.pattern.looksInside = true := by
    decide +kernel
  intro rule hr
  exact ⟨(hall rule hr).1, (hall rule hr).2.1, (hall rule hr).2.2⟩

/-! ## Secrets -/

namespace SecretFinding

/-- A rule that ignores padding finds the same in a padded line. -/
theorem inLine_of_pads {rule : SecretRule} (hp : rule.pattern.IgnoresPadding) {line line' : Text}
    (h : Text.Pads line line') (file : Text) (n : Nat) :
    inLine rule file n line' = inLine rule file n line := by
  obtain ⟨front, back, hfront, hback, rfl⟩ := h
  rw [inLine, inLine, SecretRule.hits, SecretRule.hits, hits_pad hp hfront hback, List.map_map]
  refine List.map_congr_left fun hit _ => ?_
  simp only [Function.comp_apply, ofHit, Hit.text_pad, Text.strip_append hfront hback]

theorem inLines_of_pads {rule : SecretRule} (hp : rule.pattern.IgnoresPadding)
    {lines lines' : List Text} (h : List.Forall₂ Text.Pads lines lines') (file : Text) (n : Nat) :
    inLines rule file n lines' = inLines rule file n lines := by
  induction h generalizing n with
  | nil => rfl
  | cons hline _ ih => rw [inLines, inLines, inLine_of_pads hp hline, ih]

theorem detect_of_padsLines {rules : List SecretRule}
    (hp : ∀ rule ∈ rules, rule.pattern.IgnoresPadding) {content content' : Text}
    (h : Text.PadsLines content content') (file : Text) :
    detect rules content' file = detect rules content file :=
  List.flatMap_congr fun rule hr => inLines_of_pads (hp rule hr) h file 1

end SecretFinding

/-! ## Usages -/

/-- In a padded line the same names are read, all as many columns on. -/
theorem AccessRule.names_pad {rule : AccessRule} (hp : rule.pattern.IgnoresPadding)
    {front back : Text} (hfront : ∀ c ∈ front, isBlank c = true)
    (hback : ∀ c ∈ back, isBlank c = true) (line : Text) :
    rule.names (front ++ line ++ back) =
      (rule.names line).map fun r => (front.length + r.1, r.2) := by
  rw [names, names, hits_pad hp hfront hback, List.filterMap_map, List.map_filterMap]
  refine List.filterMap_congr fun hit _ => ?_
  have hcap : (hit.pad front back).stop.captured = hit.stop.captured := rfl
  simp only [Function.comp_apply, hcap, Hit.column_pad]
  split <;> rfl

namespace EnvKeyUsage

/-- Readings keep their order when all of them move. -/
theorem place_move (n : Nat) (a : Nat × Text) (rs : List (Nat × Text)) :
    place (n + a.1, a.2) (rs.map fun r => (n + r.1, r.2)) =
      (place a rs).map fun r => (n + r.1, r.2) := by
  induction rs with
  | nil => rfl
  | cons b rs ih =>
    have heq : ((n + a.1, a.2) : Nat × Text) = (n + b.1, b.2) ↔ a = b := by
      rw [Prod.ext_iff, Prod.ext_iff]
      exact and_congr_left' Nat.add_left_cancel_iff
    have hbefore : comesBefore (n + a.1, a.2) (n + b.1, b.2) = comesBefore a b := by
      have hcolumn : (n + a.1 == n + b.1) = (a.1 == b.1) := Bool.eq_iff_iff.mpr (by simp)
      simp [comesBefore, hcolumn]
    simp only [List.map_cons, place, heq, hbefore, ih]
    by_cases hab : a = b
    · simp [hab]
    · by_cases hlt : comesBefore a b = true <;> simp [hab, hlt]

theorem readings_pad {rules : List AccessRule} (hp : ∀ rule ∈ rules, rule.pattern.IgnoresPadding)
    {front back : Text} (hfront : ∀ c ∈ front, isBlank c = true)
    (hback : ∀ c ∈ back, isBlank c = true) (line : Text) :
    readings rules (front ++ line ++ back) =
      (readings rules line).map fun r => (front.length + r.1, r.2) := by
  have hnames : (rules.flatMap (·.names (front ++ line ++ back))) =
      (rules.flatMap (·.names line)).map fun r => (front.length + r.1, r.2) := by
    rw [List.map_flatMap]
    exact List.flatMap_congr fun rule hr => AccessRule.names_pad (hp rule hr) hfront hback line
  rw [readings, readings, hnames]
  induction rules.flatMap (·.names line) with
  | nil => rfl
  | cons r rs ih => rw [List.map_cons, List.foldr_cons, List.foldr_cons, ih, place_move]

theorem inLine_of_pads {rules : List AccessRule} (hp : ∀ rule ∈ rules, rule.pattern.IgnoresPadding)
    {line line' : Text} (h : Text.Pads line line') (file : Text) (n : Nat) :
    inLine rules file n line' = inLine rules file n line := by
  obtain ⟨front, back, hfront, hback, rfl⟩ := h
  rw [inLine, inLine, readings_pad hp hfront hback, List.map_map, Text.strip_append hfront hback]
  rfl

theorem inLines_of_pads {rules : List AccessRule} (hp : ∀ rule ∈ rules, rule.pattern.IgnoresPadding)
    {lines lines' : List Text} (h : List.Forall₂ Text.Pads lines lines') (file : Text) (n : Nat) :
    inLines rules file n lines' = inLines rules file n lines := by
  induction h generalizing n with
  | nil => rfl
  | cons hline _ ih => rw [inLines, inLines, inLine_of_pads hp hline, ih]

theorem find_of_padsLines {rules : List AccessRule}
    (hp : ∀ rule ∈ rules, rule.pattern.IgnoresPadding) {content content' : Text}
    (h : Text.PadsLines content content') (file : Text) :
    find rules content' file = find rules content file := by
  rw [find, find, inLines_of_pads hp h]

end EnvKeyUsage

/-! ## Scans -/

namespace ContentScan

/-- **A scan does not see white space at the ends of lines.** White space put at either end of any
lines of a text, or a carriage return before each line feed, changes neither the findings nor the
usages: not what is found, nor where, nor what is shown of it. -/
theorem scan_ignores_line_edges (content file : Text) :
    (∀ content', Text.PadsLines content content' → scan content' file = scan content file) ∧
      Text.PadsLines content (Text.withReturns content) := by
  refine ⟨fun content' h => ?_, Text.padsLines_withReturns content⟩
  rw [scan, scan, SecretFinding.detect_of_padsLines ignoresPadding_registry h,
    EnvKeyUsage.find_of_padsLines AccessRule.ignoresPadding_registry h]

/-- A text with a secret and a variable. -/
def plainText : Text := "pwd = hunter2hunter2\nos.getenv('A')".toList

/-- The same text with tabs and spaces in front, spaces, a tab and a carriage return behind. -/
def paddedText : Text := "\t\tpwd = hunter2hunter2 \r\n  os.getenv('A') \t".toList

theorem padsLines_paddedText : Text.PadsLines plainText paddedText := by
  have hplain : Text.lines plainText =
      ["pwd = hunter2hunter2".toList, "os.getenv('A')".toList] := by decide
  have hpadded : Text.lines paddedText =
      ["\t\tpwd = hunter2hunter2 \r".toList, "  os.getenv('A') \t".toList] := by decide
  rw [Text.PadsLines, hplain, hpadded]
  refine .cons ⟨"\t\t".toList, " \r".toList, ?_, ?_, by decide⟩
    (.cons ⟨"  ".toList, " \t".toList, ?_, ?_, by decide⟩ .nil)
  all_goals exact List.all_eq_true.mp (by decide)

/-- The padding of a text with a secret and a variable is not seen. -/
theorem scan_paddedText :
    Text.PadsLines plainText paddedText ∧
      scan paddedText "a.py".toList = scan plainText "a.py".toList :=
  ⟨padsLines_paddedText, (scan_ignores_line_edges plainText _).1 _ padsLines_paddedText⟩

end ContentScan
end EnvAudit
