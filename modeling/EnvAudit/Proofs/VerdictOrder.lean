import EnvAudit.Report.Basic
import Mathlib.Data.List.Perm.Subperm

/-!
# Verdicts and evidence

Verdicts are a chain from none to critical, and evidence only climbs it: a report on more findings,
with no fewer committed environment files, never has a milder verdict (`verdict_mono`). The findings
count as a multiset, so neither their order nor whether they come from the files or from the history
matters.
-/
namespace EnvAudit

namespace RiskLevel

theorem rank_injective : Function.Injective rank := by
  intro a b h
  cases a <;> cases b <;> simp_all [rank]

/-- Two verdicts of which neither is milder are the same. -/
theorem le_antisymm {a b : RiskLevel} (h : a ≤ b) (h' : b ≤ a) : a = b :=
  rank_injective (Nat.le_antisymm h h')

end RiskLevel

namespace SeverityCounts

/-- Some of the findings of a list, in any order, are no more of any confidence. -/
theorem countOf_le_of_subperm {fs gs : List SecretFinding} (h : fs.Subperm gs) (c : Confidence) :
    countOf c fs ≤ countOf c gs := Int.ofNat_le.mpr (h.countP_le _)

/-- More findings and more committed files never lower the verdict on them. -/
theorem overall_le_of_subperm {fs gs : List SecretFinding} (h : fs.Subperm gs) {m n : Nat}
    (hmn : m ≤ n) :
    RiskLevel.overall (ofFindings fs) m ≤ RiskLevel.overall (ofFindings gs) n := by
  rw [ofFindings_eq, ofFindings_eq]
  refine RiskLevel.overall_mono ?_ ?_ ?_ (Int.ofNat_le.mpr hmn)
  · exact countOf_le_of_subperm h .high
  · exact countOf_le_of_subperm h .medium
  · exact countOf_le_of_subperm h .low

end SeverityCounts

namespace ScanReport

variable (secrets history secrets' history' : List SecretFinding)
  (usages usages' : List EnvKeyUsage) (envFiles envFiles' : List EnvFileRecord)
  (scanned skipped scanned' skipped' : Int)

/-- **More evidence never lowers the verdict.** If all findings of a report, from the files and from
the history, are among those of another, each at most as often, and no more environment files are
committed, its verdict is no graver. So reports on the same findings, in whatever order and from
wherever they come, with as many committed files, have the same verdict. -/
theorem verdict_mono :
    ((secrets ++ history).Subperm (secrets' ++ history') →
      envFiles.countP (·.isCommitted) ≤ envFiles'.countP (·.isCommitted) →
      (make secrets usages envFiles scanned skipped history).summary.overallRisk ≤
        (make secrets' usages' envFiles' scanned' skipped' history').summary.overallRisk) ∧
    ((secrets ++ history).Perm (secrets' ++ history') →
      envFiles.countP (·.isCommitted) = envFiles'.countP (·.isCommitted) →
      (make secrets usages envFiles scanned skipped history).summary.overallRisk =
        (make secrets' usages' envFiles' scanned' skipped' history').summary.overallRisk) := by
  refine ⟨fun h hc => ?_, fun h hc => RiskLevel.le_antisymm ?_ ?_⟩
  · exact SeverityCounts.overall_le_of_subperm h hc
  · exact SeverityCounts.overall_le_of_subperm h.subperm (Nat.le_of_eq hc)
  · exact SeverityCounts.overall_le_of_subperm h.symm.subperm (Nat.le_of_eq hc.symm)

/-- Some finding of a confidence. -/
def findingOf (c : Confidence) : SecretFinding := ⟨[], [], 1, [], c, [], []⟩

/-- Three findings of medium confidence and one of low confidence make a report of medium risk; one
more finding from the history makes the risk high, in whatever order they all come. -/
theorem verdict_mono_history :
    (make [findingOf .medium, findingOf .low] [] [] 0 0
        [findingOf .medium, findingOf .medium]).summary.overallRisk = .medium ∧
      (make [findingOf .medium, findingOf .low] [] [] 0 0
          [findingOf .medium, findingOf .medium]).summary.overallRisk ≤
        (make [findingOf .low, findingOf .medium] [] [] 0 0
          [findingOf .medium, findingOf .medium, findingOf .medium]).summary.overallRisk ∧
      (make [findingOf .low, findingOf .medium] [] [] 0 0
        [findingOf .medium, findingOf .medium, findingOf .medium]).summary.overallRisk = .high :=
  ⟨by decide, (verdict_mono _ _ _ _ _ _ _ _ _ _ _ _).1 (by decide) (by decide), by decide⟩

end ScanReport
end EnvAudit
