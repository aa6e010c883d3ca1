import EnvAudit.Proofs.ScanResult
import EnvAudit.Proofs.UsageMerge
import Mathlib.Data.List.Flatten
import Mathlib.Data.List.Sort

/-!
# Exclusions only take away

More globs leave out more files and change nothing about the files that stay. So with more globs a
scan of a repository reports some of the same findings and records in the same order, no other
variables, and no graver verdict; and with the same globs, in whatever order and however often, it
reports the same (`scan_exclusion_mono`). Without a limit on the number of files, that is: with one,
files that are left out make room for others.
-/
namespace EnvAudit

/-! ## Candidates -/

theorem Glob.excludesParts_eq_false_mono {globs globs' : List Text} (h : ∀ g ∈ globs, g ∈ globs')
    {parts : List Text} {isDir : Bool} (hx : excludesParts globs' parts isDir = false) :
    excludesParts globs parts isDir = false := by
  rw [Bool.eq_false_iff] at hx ⊢
  exact fun hx' => hx (excludesParts_mono h hx')

namespace FileTree

section

variable {t : FileTree} {globs globs' : List Text} {loc : Location} {rel : RelPath}
  {node : FileNode}

theorem Passes.mono (h : ∀ g ∈ globs, g ∈ globs') {dirs : List Text} {name : Text}
    (hp : t.Passes globs' loc rel dirs name node) : t.Passes globs loc rel dirs name node where
  isFile := hp.isFile
  noSkippedDir := hp.noSkippedDir
  aboveKept above hne hpre := Glob.excludesParts_eq_false_mono h (hp.aboveKept above hne hpre)
  nameKept := hp.nameKept
  pathKept := Glob.excludesParts_eq_false_mono h hp.pathKept

/-- With more globs a walk yields some of the same files, in the same order. -/
theorem candidatesIn_sublist (hp : node.isProper = true) (h : ∀ g ∈ globs, g ∈ globs') :
    (t.candidatesIn globs' loc rel node).Sublist (t.candidatesIn globs loc rel node) := by
  have hord : ∀ globs, (t.candidatesIn globs loc rel node).Pairwise RelPath.Before :=
    fun globs => candidatesIn_pairwise hp
  refine List.sublist_of_subperm_of_pairwise ?_ (hord globs') (hord globs)
  refine List.subperm_of_subset (hord globs').nodup fun path hpath => ?_
  obtain ⟨dirs, name, n, rfl, hat, hpass⟩ := (mem_candidatesIn hp path).mp hpath
  exact (mem_candidatesIn hp _).mpr ⟨dirs, name, n, rfl, hat, hpass.mono h⟩

end

/-- With the same globs a walk yields the same files. -/
theorem candidates_congr {t : FileTree} (ht : t.Proper) {globs globs' : List Text}
    (h : ∀ g, g ∈ globs ↔ g ∈ globs') (root : PathName) :
    t.candidates root globs = t.candidates root globs' := by
  unfold candidates
  split
  · rename_i loc node hf
    have hp := ht.isProper_of_at? (at?_of_find? hf)
    refine congrArg Except.ok (List.Sublist.antisymm ?_ ?_)
    · exact candidatesIn_sublist hp fun g hg => (h g).mpr hg
    · exact candidatesIn_sublist hp fun g hg => (h g).mp hg
  all_goals rfl

end FileTree

/-! ## Results put together -/

namespace DirectoryScan

/-- The results of fewer files have fewer findings. -/
theorem secrets_ofFiles_sublist {rs rs' : List (Option ContentScan)} (h : rs'.Sublist rs) :
    (ofFiles rs').secrets.Sublist (ofFiles rs).secrets := (h.filterMap id).flatMap _

/-- The results of fewer files have fewer variables. -/
theorem names_ofFiles_subset {rs rs' : List (Option ContentScan)} (h : rs'.Sublist rs) :
    EnvKeyUsage.names (ofFiles rs').usages ⊆ EnvKeyUsage.names (ofFiles rs).usages := by
  intro name hname
  obtain ⟨us, hus, hin⟩ := EnvKeyUsage.mem_names_merge.mp hname
  exact EnvKeyUsage.mem_names_merge.mpr ⟨us, ((h.filterMap id).map _).subset hus, hin⟩

end DirectoryScan

/-- Whether a report has nothing that another has not: some of its secrets and records in the same
order, no other variables, and no graver verdict. -/
structure ScanReport.Within (small large : ScanReport) : Prop where
  secrets : small.secrets.Sublist large.secrets
  envFiles : small.envFiles.Sublist large.envFiles
  envKeys : EnvKeyUsage.names small.envKeys ⊆ EnvKeyUsage.names large.envKeys
  risk : small.summary.overallRisk ≤ large.summary.overallRisk

/-- What is within other findings makes a report within theirs. -/
theorem ScanReport.within_make {secrets secrets' history : List SecretFinding}
    {usages usages' : List EnvKeyUsage} {envFiles envFiles' : List EnvFileRecord}
    (hsecrets : secrets'.Sublist secrets)
    (hnames : EnvKeyUsage.names usages' ⊆ EnvKeyUsage.names usages)
    (hfiles : envFiles'.Sublist envFiles) (scanned skipped scanned' skipped' : Int) :
    Within (make secrets' usages' envFiles' scanned' skipped' history)
      (make secrets usages envFiles scanned skipped history) := by
  have hall : (secrets' ++ history).Sublist (secrets ++ history) := hsecrets.append_right history
  refine ⟨hall, hfiles, hnames, ?_⟩
  simp only [make, SeverityCounts.ofFindings_eq]
  exact RiskLevel.overall_mono (SeverityCounts.countOf_le hall) (SeverityCounts.countOf_le hall)
    (SeverityCounts.countOf_le hall) (Int.ofNat_le.mpr hfiles.countP_le)

/-! ## Scans of a repository -/

namespace RepositoryScan

open DirectoryScan

theorem mem_allGlobs {config : ScanConfig} {globs : List Text} {g : Text} :
    g ∈ allGlobs config globs ↔ g ∈ config.exclude ++ globs := List.mem_eraseDups

/-- Globs count only for the candidates. -/
theorem scanAt_congr {t : FileTree} {root : PathName} {globs globs' : List Text}
    (h : t.candidates root globs = t.candidates root globs') (config : ScanConfig)
    (exclude : List Text) (options : Options) (more : List Text) :
    scanAt t root { config with exclude := exclude } globs' { options with globs := more } =
      scanAt t root config globs options := by
  rw [scanAt, scanAt, DirectoryScan.scan, DirectoryScan.scan, Inventory.take, Inventory.take,
    Inventory.findEnvFiles, Inventory.findEnvFiles, h]

/-- With more globs the report on a directory is within that with fewer. -/
theorem scanAt_mono {t : FileTree} (ht : t.Proper) {root : PathName} {loc : Location}
    {es : List (Text × FileNode)} (h : t.find? root = .ok (some (loc, .dir es)))
    {config : ScanConfig} {globs globs' : List Text} {options : Options}
    (hconfig : config.maxFiles = none) (hoptions : options.maxFiles = none)
    (hsub : ∀ g ∈ globs, g ∈ globs') (exclude more : List Text) :
    EndAlike (fun first second => second.report.Within first.report)
      (scanAt t root config globs options).outcome
      (scanAt t root { config with exclude := exclude } globs'
        { options with globs := more }).outcome := by
  rcases Int.lt_or_le 0 config.maxWorkers with hw | hw
  · obtain ⟨asked, hfirst⟩ := outcome_scanAt ht h hw globs options
    have hw' : 0 < ({ config with exclude := exclude } : ScanConfig).maxWorkers := hw
    obtain ⟨asked', hsecond⟩ := outcome_scanAt ht h hw' globs' { options with globs := more }
    have hall : (t.candidatesIn globs' loc [] (.dir es)).Sublist
        (t.candidatesIn globs loc [] (.dir es)) :=
      FileTree.candidatesIn_sublist (ht.isProper_of_at? (FileTree.at?_of_find? h)) hsub
    rw [hfirst, hsecond]
    refine .ok (ScanReport.within_make (secrets_ofFiles_sublist ?_) (names_ofFiles_subset ?_) ?_ ..)
    · simpa [DirectoryScan.Options.files, directoryOptions, hconfig, hoptions] using hall.map _
    · simpa [DirectoryScan.Options.files, directoryOptions, hconfig, hoptions] using hall.map _
    · exact (hall.filter _).map _
  · have hw' : ({ config with exclude := exclude } : ScanConfig).maxWorkers ≤ 0 := hw
    rw [scanAt_of_no_workers h hw, scanAt_of_no_workers h hw']
    exact .error _

/-- **With more globs a scan reports less of the same, and with the same globs the same.** Two
scans whose configurations and options differ only in their globs, without a limit on the number of
files, end alike: in one failure, or in reports of which the second is within the first if every
glob of the first scan is one of the second. If the globs are the same, the scans are the same. -/
theorem scan_exclusion_mono {t : FileTree} (ht : t.Proper) (p : PathName) (config : ScanConfig)
    (exclude : List Text) (options : Options) (more : List Text) (workers : Option Text)
    (hconfig : config.maxFiles = none) (hoptions : options.maxFiles = none)
    (hsub : ∀ g ∈ config.exclude ++ options.globs, g ∈ exclude ++ more) :
    EndAlike (fun first second => second.report.Within first.report)
        (scan t p (some config) workers options).outcome
        (scan t p (some { config with exclude := exclude }) workers
          { options with globs := more }).outcome ∧
      ((∀ g ∈ exclude ++ more, g ∈ config.exclude ++ options.globs) →
        scan t p (some { config with exclude := exclude }) workers { options with globs := more } =
          scan t p (some config) workers options) := by
  rw [scan_some, scan_some]
  cases hopen : openRoot t p with
  | error e => exact ⟨.error e, fun _ => rfl⟩
  | ok root =>
    obtain ⟨loc, es, h⟩ := find?_of_openRoot hopen
    refine ⟨?_, fun hback => ?_⟩
    · refine scanAt_mono ht h hconfig hoptions (fun g hg => ?_) exclude more
      exact mem_allGlobs.mpr (hsub g (mem_allGlobs.mp hg))
    · refine congrArg _ (funext fun root => scanAt_congr ?_ config exclude options more)
      refine FileTree.candidates_congr ht (fun g => ?_) root
      rw [mem_allGlobs, mem_allGlobs]
      exact ⟨hsub g, hback g⟩

/-- A scan that leaves out what is written in prose; whoever is asked knows of no file. -/
def projectOptions : Options where
  globs := ["*.md".toList]
  tracker := .given fun path => .error path

/-- With a configuration that leaves out a directory as well, the report on a project is within the
one without. -/
theorem scan_exclusion_mono_project :
    ∃ first second, (scan (FileTree.projectTree FileTree.projectEntries) ⟨.root, []⟩
        (some .default) none projectOptions).outcome = .ok first ∧
      (scan (FileTree.projectTree FileTree.projectEntries) ⟨.root, []⟩
        (some { ScanConfig.default with exclude := ["build/".toList] }) none
        { projectOptions with globs := ["*.md".toList, "*.md".toList] }).outcome = .ok second ∧
      second.report.Within first.report := by
  have hp : (FileTree.projectTree FileTree.projectEntries).Proper := ⟨by decide, rfl, rfl⟩
  have hroot : (FileTree.projectTree FileTree.projectEntries).find? ⟨.root, []⟩ =
      .ok (some ([], .dir FileTree.projectEntries)) := rfl
  have hopen : openRoot (FileTree.projectTree FileTree.projectEntries) ⟨.root, []⟩ =
      .ok ⟨.root, []⟩ := rfl
  have halike := (scan_exclusion_mono hp ⟨.root, []⟩ .default ["build/".toList] projectOptions
    ["*.md".toList, "*.md".toList] none rfl rfl (by simp [ScanConfig.default, projectOptions])).1
  have hw : 0 < ScanConfig.default.maxWorkers := by decide
  have hok : ∃ first, (scan (FileTree.projectTree FileTree.projectEntries) ⟨.root, []⟩
      (some .default) none projectOptions).outcome = .ok first := by
    rw [scan_some, hopen]
    obtain ⟨asked, hfirst⟩ := outcome_scanAt hp hroot hw
      (allGlobs .default projectOptions.globs) projectOptions
    exact ⟨_, hfirst⟩
  obtain ⟨first, hfirst⟩ := hok
  rw [hfirst] at halike
  generalize (scan _ _ _ _ _).outcome = second at halike ⊢
  cases halike with
  | ok hin => exact ⟨first, _, hfirst, rfl, hin⟩

end RepositoryScan
end EnvAudit
