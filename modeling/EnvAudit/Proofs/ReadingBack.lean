import EnvAudit.Proofs.LoadedConfig
import EnvAudit.Report.Basic
import EnvAudit.Dotenv.ExampleFile

/-!
# Reading back what was written

Data is read leniently and written in one form. What is written is read back as the value that it
was written for, record by record and through all nesting (`ofData_toData`), so that a value that was
read once is never changed by being written and read again (`survives_writing`). Only the options of
a scan have limits, which what was read keeps: `ScanConfig.ofData_toData_iff`.
-/
namespace EnvAudit

open Checked

section

variable {c : Coercion} (hc : c.KeepsTyped)

include hc

/-! ## Findings and usages -/

theorem SecretFinding.ofData_toData (f : SecretFinding) : ofData f.toData c = .ok f := by
  obtain ⟨rule, file, line, snippet, confidence, remediation, context⟩ := f
  refine ap_eq_ok ?_ (optional_eq_ok rfl (hc.text _))
  refine ap_eq_ok ?_ (required_eq_ok rfl (hc.text _))
  refine ap_eq_ok ?_ (required_eq_ok rfl (named_text (Confidence.ofName?_name confidence)))
  refine ap_eq_ok ?_ (required_eq_ok rfl (hc.text _))
  refine ap_eq_ok ?_ (required_eq_ok rfl (hc.int _))
  refine ap_eq_ok ?_ (required_eq_ok rfl (hc.text _))
  refine ap_eq_ok ?_ (required_eq_ok rfl (hc.text _))
  rfl

theorem EnvKeyLocation.ofData_toData (l : EnvKeyLocation) : ofData l.toData c = .ok l := by
  obtain ⟨file, line, snippet⟩ := l
  unfold ofData toData record
  refine ap_eq_ok ?_ (required_eq_ok rfl (hc.text _))
  refine ap_eq_ok ?_ (required_eq_ok rfl (hc.int _))
  refine ap_eq_ok ?_ (required_eq_ok rfl (hc.text _))
  rfl

/-- The number of locations is written and not read. -/
theorem EnvKeyUsage.ofData_toData (u : EnvKeyUsage) : ofData u.toData c = .ok u := by
  obtain ⟨name, locations⟩ := u
  refine ap_eq_ok ?_ (optional_eq_ok rfl (list_map hc fun l _ => l.ofData_toData hc))
  refine ap_eq_ok ?_ (required_eq_ok rfl (hc.text _))
  rfl

/-! ## Environment files -/

/-- A text that may be absent is read back. -/
theorem EnvEntry.orNull_optionalText (t : Option Text) :
    orNull c.text (optionalText t) = .ok t := by
  cases t with
  | none => rfl
  | some t => exact orNull_eq_ok (by simp [optionalText]) (hc.text t)

theorem EnvEntry.ofData_toData (e : EnvEntry) : ofData e.toData c = .ok e := by
  obtain ⟨kind, raw, lineNumber, key, value⟩ := e
  refine ap_eq_ok ?_ (optional_eq_ok rfl (orNull_optionalText hc value))
  refine ap_eq_ok ?_ (optional_eq_ok rfl (orNull_optionalText hc key))
  refine ap_eq_ok ?_ (required_eq_ok rfl (hc.int _))
  refine ap_eq_ok ?_ (required_eq_ok rfl (hc.text _))
  refine ap_eq_ok ?_ (required_eq_ok rfl (named_text (EntryKind.ofName?_name kind)))
  rfl

theorem EnvFileRecord.ofData_toData (r : EnvFileRecord) : ofData r.toData c = .ok r := by
  obtain ⟨path, isCommitted, keysFound, keys, severity, issue⟩ := r
  refine ap_eq_ok ?_ (optional_eq_ok rfl (hc.text _))
  refine ap_eq_ok ?_ (optional_eq_ok rfl (named_text (EnvFileSeverity.ofName?_name severity)))
  refine ap_eq_ok ?_ (optional_eq_ok rfl (list_map hc fun _ _ => hc.text _))
  refine ap_eq_ok ?_ (optional_eq_ok rfl (hc.int _))
  refine ap_eq_ok ?_ (optional_eq_ok rfl (hc.bool _))
  refine ap_eq_ok ?_ (required_eq_ok rfl (hc.text _))
  rfl

theorem ExampleResult.ofData_toData (r : ExampleResult) : ofData (r.toData true) c = .ok r := by
  obtain ⟨success, existed, message, envPath, examplePath, keysFound, content⟩ := r
  unfold ofData toData record
  refine ap_eq_ok ?_ (optional_eq_ok rfl (hc.text _))
  refine ap_eq_ok ?_ (optional_eq_ok rfl (hc.int _))
  refine ap_eq_ok ?_ (optional_eq_ok rfl (hc.text _))
  refine ap_eq_ok ?_ (optional_eq_ok rfl (hc.text _))
  refine ap_eq_ok ?_ (optional_eq_ok rfl (hc.text _))
  refine ap_eq_ok ?_ (optional_eq_ok rfl (hc.bool _))
  refine ap_eq_ok ?_ (required_eq_ok rfl (hc.bool _))
  rfl

/-! ## Reports -/

theorem SeverityCounts.ofData_toData (n : SeverityCounts) : ofData n.toData c = .ok n := by
  obtain ⟨high, medium, low⟩ := n
  unfold ofData toData record
  refine ap_eq_ok ?_ (optional_eq_ok rfl (hc.int _))
  refine ap_eq_ok ?_ (optional_eq_ok rfl (hc.int _))
  refine ap_eq_ok ?_ (optional_eq_ok rfl (hc.int _))
  rfl

theorem ScanSummary.ofData_toData (s : ScanSummary) : ofData s.toData c = .ok s := by
  obtain ⟨scanned, skipped, keys, secrets, files, committed, severity, risk⟩ := s
  refine ap_eq_ok ?_ (optional_eq_ok rfl (named_text (RiskLevel.ofName?_name risk)))
  refine ap_eq_ok ?_ (optional_eq_ok rfl (severity.ofData_toData hc))
  refine ap_eq_ok ?_ (optional_eq_ok rfl (hc.int _))
  refine ap_eq_ok ?_ (optional_eq_ok rfl (hc.int _))
  refine ap_eq_ok ?_ (optional_eq_ok rfl (hc.int _))
  refine ap_eq_ok ?_ (optional_eq_ok rfl (hc.int _))
  refine ap_eq_ok ?_ (optional_eq_ok rfl (hc.int _))
  refine ap_eq_ok ?_ (optional_eq_ok rfl (hc.int _))
  rfl

theorem ScanReport.ofData_toData (r : ScanReport) : ofData r.toData c = .ok r := by
  obtain ⟨summary, envKeys, secrets, envFiles, recommendations⟩ := r
  refine ap_eq_ok ?_ (optional_eq_ok rfl (list_map hc fun _ _ => hc.text _))
  refine ap_eq_ok ?_ (optional_eq_ok rfl (list_map hc fun f _ => f.ofData_toData hc))
  refine ap_eq_ok ?_ (optional_eq_ok rfl (list_map hc fun f _ => f.ofData_toData hc))
  refine ap_eq_ok ?_ (optional_eq_ok rfl (list_map hc fun u _ => u.ofData_toData hc))
  refine ap_eq_ok ?_ (optional_eq_ok rfl (summary.ofData_toData hc))
  rfl

/-! ## Options -/

namespace ScanConfig

/-- A limit is read back if it is not below its least value. -/
theorem orNull_limitData {least : Int} {limit : Option Int} (h : ∀ n ∈ limit, least ≤ n) :
    orNull (intFrom c least) (limitData limit) = .ok limit := by
  cases limit with
  | none => rfl
  | some n => exact orNull_eq_ok (by simp [limitData]) (intFrom_int hc (h n rfl))

/-- Options are read back exactly if they are valid. -/
theorem ofData_toData_iff {config : ScanConfig} :
    ofData config.toData c = .ok config ↔ config.IsValid := by
  constructor
  · intro h
    exact isValid_of_ofData h
  · intro h
    obtain ⟨exclude, maxFiles, maxWorkers, maxFileSize⟩ := config
    refine ap_eq_ok ?_ (Checked.optional_eq_ok rfl (intFrom_int hc h.maxFileSize))
    refine ap_eq_ok ?_ (Checked.optional_eq_ok rfl (intFrom_int hc h.maxWorkers))
    refine ap_eq_ok ?_ (Checked.optional_eq_ok rfl (orNull_limitData hc h.maxFiles))
    refine ap_eq_ok ?_ (Checked.optional_eq_ok rfl (list_map hc fun _ _ => hc.text _))
    rfl

end ScanConfig

end

/-! ## All records -/

/-- How the values of a record are read from data and written as data. -/
structure DataFormat where
  Value : Type
  read : Data → Checked Value
  write : Value → Data

namespace DataFormat

/-- The formats of all records, by how single values are read. -/
def all (c : Coercion) : List DataFormat :=
  [⟨SecretFinding, (SecretFinding.ofData · c), SecretFinding.toData⟩,
    ⟨EnvKeyLocation, (EnvKeyLocation.ofData · c), EnvKeyLocation.toData⟩,
    ⟨EnvKeyUsage, (EnvKeyUsage.ofData · c), EnvKeyUsage.toData⟩,
    ⟨EnvEntry, (EnvEntry.ofData · c), EnvEntry.toData⟩,
    ⟨EnvFileRecord, (EnvFileRecord.ofData · c), EnvFileRecord.toData⟩,
    ⟨SeverityCounts, (SeverityCounts.ofData · c), SeverityCounts.toData⟩,
    ⟨ScanSummary, (ScanSummary.ofData · c), ScanSummary.toData⟩,
    ⟨ScanReport, (ScanReport.ofData · c), ScanReport.toData⟩,
    ⟨ExampleResult, (ExampleResult.ofData · c), fun r => r.toData true⟩,
    ⟨ScanConfig, (ScanConfig.ofData · c), ScanConfig.toData⟩]

/-- Whether what was read once is read back from what it is written as. -/
def ReadsBack (f : DataFormat) : Prop := ∀ d x, f.read d = .ok x → f.read (f.write x) = .ok x

theorem readsBack_of_mem {c : Coercion} (hc : c.KeepsTyped) {f : DataFormat} (h : f ∈ all c) :
    f.ReadsBack := by
  unfold all at h
  simp only [List.mem_cons, List.not_mem_nil, or_false] at h
  intro d x hx
  rcases h with rfl | rfl | rfl | rfl | rfl | rfl | rfl | rfl | rfl | rfl
  · exact SecretFinding.ofData_toData hc x
  · exact EnvKeyLocation.ofData_toData hc x
  · exact EnvKeyUsage.ofData_toData hc x
  · exact EnvEntry.ofData_toData hc x
  · exact EnvFileRecord.ofData_toData hc x
  · exact SeverityCounts.ofData_toData hc x
  · exact ScanSummary.ofData_toData hc x
  · exact ScanReport.ofData_toData hc x
  · exact ExampleResult.ofData_toData hc x
  · exact (ScanConfig.ofData_toData_iff hc).mpr (ScanConfig.isValid_of_ofData hx)

/-- **Whatever was read survives being written**: it is read back as an equal value, which is written
as the same data, for every record and however leniently single values are read. -/
theorem survives_writing {c : Coercion} (hc : c.KeepsTyped) {f : DataFormat} (hf : f ∈ all c)
    {d : Data} {x : f.Value} (h : f.read d = .ok x) :
    ∃ y, f.read (f.write x) = .ok y ∧ y = x ∧ f.write y = f.write x :=
  ⟨x, readsBack_of_mem hc hf d x h, rfl, rfl⟩

/-- A report as someone may write it: numbers as texts and truth values, a number of locations that is
not theirs, a name that no report has, and much left out. -/
def laxReport : Data :=
  .map [(.text "summary".toList, .map [(.text "files_scanned".toList, .text " +0_3.0 ".toList),
      (.text "severity".toList, .map [(.text "high".toList, .bool true)]),
      (.text "overall_risk".toList, .text "critical".toList)]),
    (.text "colour".toList, .text "blue".toList),
    (.text "env_keys".toList, .list [.map [(.text "name".toList, .text ['A']),
      (.text "usage_count".toList, .int 7),
      (.text "locations".toList, .list [.map [(.text "file".toList, .text ['f']),
        (.text "line".toList, .text ['2']), (.text "snippet".toList, .text [])]])]])]

/-- The report that it stands for. -/
def readReport : ScanReport where
  summary := { ScanSummary.empty with filesScanned := 3, severity := ⟨1, 0, 0⟩, overallRisk := .critical }
  envKeys := [⟨['A'], [⟨['f'], 2, []⟩]⟩]
  secrets := []
  envFiles := []
  recommendations := []

/-- A report that was read leniently is read back. -/
theorem survives_writing_laxReport :
    Coercion.lenient.KeepsTyped ∧ ScanReport.ofData laxReport = .ok readReport ∧
      ∃ y, ScanReport.ofData readReport.toData = .ok y ∧ y = readReport ∧
        y.toData = readReport.toData := by
  have hread : ScanReport.ofData laxReport = .ok readReport := rfl
  have hmem : ⟨ScanReport, (ScanReport.ofData · .lenient), ScanReport.toData⟩ ∈ all .lenient := by
    simp [all]
  exact ⟨Coercion.keepsTyped_lenient, hread,
    @survives_writing _ Coercion.keepsTyped_lenient _ hmem laxReport readReport hread⟩

end DataFormat
end EnvAudit
