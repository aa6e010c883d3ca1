import EnvAudit.Report.Basic
import Mathlib.Data.List.Forall2

/-!
# The parts of a report agree

The verdict and the recommendations of a report are made apart, each from the findings and the
records of environment files, and the counts a third time. They never contradict each other
(`parts_agree`): the counts add up to the findings, the verdict is critical exactly if some advice
is, and none exactly if there is nothing to tell. The advice comes with falling urgency, and the one
that is always given is the last (`urgencies_forScan`).
-/
namespace EnvAudit

/-! ## Urgency -/

namespace Priority

/-- How far a priority is from the most urgent. -/
def rank : Priority → Nat
  | .critical => 0
  | .high => 1
  | .medium => 2
  | .info => 3

/-- What a line of advice starts with. -/
def tag (p : Priority) : Text := '[' :: p.name ++ "]".toList

theorem eq_of_tag_prefix {p q : Priority} (h : p.tag <+: q.tag) : p = q := by
  revert h
  cases p <;> cases q <;> decide

end Priority

namespace Recommendation

theorem text_eq (r : Recommendation) :
    r.text = r.priority.tag ++ ' ' :: (r.action ++ ": ".toList ++ r.details) := by
  have hmark : "] ".toList = "]".toList ++ [' '] := by decide
  simp [text, Priority.tag, hmark]

/-- The line of an advice starts with its priority and with no other. -/
theorem tag_prefix_text_iff (p : Priority) (r : Recommendation) :
    p.tag <+: r.text ↔ r.priority = p := by
  rw [text_eq]
  constructor
  · intro h
    rcases List.prefix_or_prefix_of_prefix h (List.prefix_append ..) with h | h
    · exact (Priority.eq_of_tag_prefix h).symm
    · exact Priority.eq_of_tag_prefix h
  · rintro rfl
    exact List.prefix_append ..

/-- Advice that may be missing has its own priority if it is there. -/
theorem priority_sublist {advice : Option Recommendation} {p : Priority}
    (h : ∀ r ∈ advice, r.priority = p) : (advice.toList.map (·.priority)).Sublist [p] := by
  cases advice with
  | none => exact List.nil_sublist _
  | some r =>
    have hr : r.priority = p := h r rfl
    simp [hr]

section

variable (secrets : List SecretFinding) (envFiles : List EnvFileRecord)
  (usages : List EnvKeyUsage)

theorem priority_rotateSecrets : ∀ r ∈ rotateSecrets secrets, r.priority = .critical := by
  intro r hr
  simp only [rotateSecrets] at hr
  split at hr
  · cases hr
  · obtain rfl := Option.some.inj hr
    rfl

theorem priority_untrackEnvFiles : ∀ r ∈ untrackEnvFiles envFiles, r.priority = .critical := by
  intro r hr
  unfold untrackEnvFiles at hr
  split at hr
  · obtain rfl := Option.some.inj hr
    rfl
  · cases hr

theorem priority_generateExample : ∀ r ∈ generateExample envFiles, r.priority = .high := by
  intro r hr
  simp only [generateExample] at hr
  split at hr
  · obtain rfl := Option.some.inj hr
    rfl
  · cases hr

theorem priority_documentKeys : ∀ r ∈ documentKeys usages, r.priority = .medium := by
  intro r hr
  unfold documentKeys at hr
  split at hr
  · obtain rfl := Option.some.inj hr
    rfl
  · cases hr

theorem priority_reviewFindings : ∀ r ∈ reviewFindings secrets, r.priority = .medium := by
  intro r hr
  simp only [reviewFindings] at hr
  split at hr
  · cases hr
  · obtain rfl := Option.some.inj hr
    rfl

/-- **Advice comes with falling urgency.** Some of five priorities in order, and then the advice
that is always given. -/
theorem urgencies_forScan : ∃ urgencies : List Priority,
    urgencies.Sublist [.critical, .critical, .high, .medium, .medium] ∧
      (forScan secrets envFiles usages).map (·.priority) = urgencies ++ [.info] := by
  have hsub := ((((priority_sublist (priority_rotateSecrets secrets)).append
    (priority_sublist (priority_untrackEnvFiles envFiles))).append
    (priority_sublist (priority_generateExample envFiles))).append
    (priority_sublist (priority_documentKeys usages))).append
    (priority_sublist (priority_reviewFindings secrets))
  refine ⟨_, hsub, ?_⟩
  simp only [forScan, List.map_append]
  rfl

theorem rotateSecrets_isSome_iff :
    (rotateSecrets secrets).isSome = true ↔ 0 < countOf .high secrets := by
  simp only [rotateSecrets]
  by_cases h : countOf .high secrets = 0
  · simp [h]
  · simp only [if_neg h, Option.isSome_some, true_iff]
    omega

theorem untrackEnvFiles_isSome_iff :
    (untrackEnvFiles envFiles).isSome = true ↔ ∃ f ∈ envFiles, f.isCommitted = true := by
  rw [untrackEnvFiles, ← List.any_eq_true]
  by_cases h : envFiles.any (·.isCommitted) = true
  · rw [if_pos h]
    exact iff_of_true rfl h
  · rw [if_neg h]
    exact iff_of_false Bool.false_ne_true h

/-- Some advice is critical exactly if there is a sure finding or a file under version control. -/
theorem exists_critical_iff :
    (∃ r ∈ forScan secrets envFiles usages, r.priority = .critical) ↔
      0 < countOf .high secrets ∨ ∃ f ∈ envFiles, f.isCommitted = true := by
  rw [← rotateSecrets_isSome_iff, ← untrackEnvFiles_isSome_iff]
  constructor
  · rintro ⟨r, hr, hp⟩
    simp only [forScan, List.mem_append, Option.mem_toList, List.mem_singleton] at hr
    rcases hr with ((((hr | hr) | hr) | hr) | hr) | rfl
    · exact .inl (Option.isSome_iff_exists.mpr ⟨r, hr⟩)
    · exact .inr (Option.isSome_iff_exists.mpr ⟨r, hr⟩)
    · rw [priority_generateExample envFiles r hr] at hp
      cases hp
    · rw [priority_documentKeys usages r hr] at hp
      cases hp
    · rw [priority_reviewFindings secrets r hr] at hp
      cases hp
    · cases hp
  · rintro (h | h)
    · obtain ⟨r, hr⟩ := Option.isSome_iff_exists.mp h
      refine ⟨r, ?_, priority_rotateSecrets secrets r hr⟩
      simp [forScan, hr]
    · obtain ⟨r, hr⟩ := Option.isSome_iff_exists.mp h
      refine ⟨r, ?_, priority_untrackEnvFiles envFiles r hr⟩
      simp [forScan, hr]

end

end Recommendation

/-! ## Reports -/

namespace ScanReport

variable (secrets history : List SecretFinding) (usages : List EnvKeyUsage)
  (envFiles : List EnvFileRecord) (scanned skipped : Int)

theorem make_isCritical_iff :
    (make secrets usages envFiles scanned skipped history).summary.overallRisk = .critical ↔
      0 < Recommendation.countOf .high (secrets ++ history) ∨
        ∃ f ∈ envFiles, f.isCommitted = true := by
  simp only [make, RiskLevel.overall_eq_critical_iff, SeverityCounts.ofFindings_eq]
  rw [Int.natCast_pos, List.countP_pos_iff]
  exact or_congr_left Int.natCast_pos

theorem make_isNone_iff :
    (make secrets usages envFiles scanned skipped history).summary.overallRisk = .none ↔
      secrets ++ history = [] ∧ ∀ f ∈ envFiles, f.isCommitted = false := by
  have hadd := SeverityCounts.countOf_add (secrets ++ history)
  have hhigh := SeverityCounts.countOf_nonneg .high (secrets ++ history)
  have hmedium := SeverityCounts.countOf_nonneg .medium (secrets ++ history)
  have hlow := SeverityCounts.countOf_nonneg .low (secrets ++ history)
  have hcommitted : (envFiles.countP (·.isCommitted) : Int) ≤ 0 ↔
      ∀ f ∈ envFiles, f.isCommitted = false := by
    rw [Int.natCast_nonpos_iff, List.countP_eq_zero]
    simp only [Bool.not_eq_true]
  have hempty : ((secrets ++ history).length : Int) ≤ 0 ↔ secrets ++ history = [] := by
    rw [Int.natCast_nonpos_iff, List.length_eq_zero_iff]
  simp only [make, RiskLevel.overall_eq_none_iff, SeverityCounts.ofFindings_eq]
  rw [← hcommitted, ← hempty]
  omega

/-- Whether the parts of a report on findings, from the files and from the history, and on
environment files say the same. -/
structure Agrees (report : ScanReport) (secrets history : List SecretFinding)
    (envFiles : List EnvFileRecord) : Prop where
  secrets_eq : report.secrets = secrets ++ history
  found_eq : report.summary.secretsFound = report.secrets.length
  /-- Every finding is counted once. -/
  found_eq_counts : report.summary.secretsFound = report.summary.severity.high +
    report.summary.severity.medium + report.summary.severity.low
  /-- The verdict is critical exactly if some advice is marked so. -/
  critical_iff : report.summary.overallRisk = .critical ↔
    ∃ line ∈ report.recommendations, Priority.critical.tag <+: line
  /-- The verdict is none exactly if there is nothing to tell. -/
  none_iff : report.summary.overallRisk = .none ↔
    report.secrets = [] ∧ ∀ f ∈ envFiles, f.isCommitted = false
  /-- Advice is marked with falling urgency, the last line and no other as information. -/
  urgencies : ∃ urgencies : List Priority,
    List.Forall₂ (fun p line => p.tag <+: line) (urgencies ++ [Priority.info])
      report.recommendations ∧
    (urgencies ++ [Priority.info]).Pairwise (fun p q => p.rank ≤ q.rank) ∧
    Priority.info ∉ urgencies

/-- **The parts of a report agree.** -/
theorem parts_agree :
    (make secrets usages envFiles scanned skipped history).Agrees secrets history envFiles where
  secrets_eq := rfl
  found_eq := rfl
  found_eq_counts := by
    simp only [make, SeverityCounts.ofFindings_eq]
    exact (SeverityCounts.countOf_add _).symm
  critical_iff := by
    rw [make_isCritical_iff, ← Recommendation.exists_critical_iff _ _ usages]
    simp only [make, List.mem_map, exists_exists_and_eq_and, Recommendation.tag_prefix_text_iff]
  none_iff := make_isNone_iff ..
  urgencies := by
    obtain ⟨urgencies, hsub, hmap⟩ :=
      Recommendation.urgencies_forScan (secrets ++ history) envFiles usages
    refine ⟨urgencies, ?_, ?_, fun hinfo => ?_⟩
    · rw [← hmap, List.forall₂_map_left_iff]
      simp only [make, List.forall₂_map_right_iff, Recommendation.tag_prefix_text_iff]
      exact List.forall₂_same.mpr fun r _ => rfl
    · have hall : [Priority.critical, .critical, .high, .medium, .medium, .info].Pairwise
          fun p q => p.rank ≤ q.rank := by decide
      exact hall.sublist (hsub.append_right [Priority.info])
    · have hmem := hsub.subset hinfo
      revert hmem
      decide

end ScanReport
end EnvAudit
