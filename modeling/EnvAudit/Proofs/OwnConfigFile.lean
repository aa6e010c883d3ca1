import EnvAudit.Proofs.AddedFile
import EnvAudit.Proofs.LoadedConfig

/-!
# The file with options among the environment files

The name of the file with options starts like that of an environment file. So an empty one, which
sets no option and holds no secret, still has a record in the inventory of its directory, unless
globs leave it out. The other records of a report stay, and without a limit on the number of files
so do the secrets (`scan_gains_own_record`). But where the file is under version control the verdict
is critical, and under a limit it takes the place of another file (`scan_counts_own_file`).
-/
namespace EnvAudit

open DirectoryScan Inventory

/-! ## Empty files -/

theorem SecretFinding.detect_nil (file : Text) : detect SecretRule.registry [] file = [] := by
  have hhits : ∀ rule ∈ SecretRule.registry, rule.hits [] = [] := by decide +kernel
  refine List.flatMap_eq_nil_iff.mpr fun rule hr => ?_
  have hlines : Text.lines [] = [[]] := rfl
  simp only [hlines, inLines, inLine, hhits rule hr, List.map_nil, List.append_nil]

/-- An empty file has the empty text, or none if not even that is small enough. -/
theorem FileTree.readText_of_empty {t : FileTree} {p : PathName} {loc : Location}
    (h : t.find? p = .ok (some (loc, .file []))) (maxSize : Int) :
    t.readText p maxSize = .ok none ∨ t.readText p maxSize = .ok (some []) := by
  rw [readText, bytesOf?, h]
  simp only [textWithin]
  split
  · exact .inl rfl
  · exact .inr rfl

/-- Where nothing is there is no text. -/
theorem FileTree.readText_of_none {t : FileTree} {p : PathName} (h : t.find? p = .ok none)
    (maxSize : Int) : t.readText p maxSize = .ok none := by
  rw [readText, bytesOf?, h]

/-! ## One empty file more -/

namespace FileTree.AddsFile

variable {t t' : FileTree} {dir : Location} {name : Text}

/-- A text differs only if there was none and it is empty. -/
theorem readText_eq_or (h : t.AddsFile t' dir name []) (ht : t.Proper) (p : PathName)
    (maxSize : Int) : t'.readText p maxSize = t.readText p maxSize ∨
      t.readText p maxSize = .ok none ∧ t'.readText p maxSize = .ok (some []) := by
  rcases h.readText_cases ht p maxSize with heq | ⟨hn, hf⟩
  · exact .inl heq
  · rcases readText_of_empty hf maxSize with hn' | hn'
    · exact .inl (hn'.trans hn.symm)
    · exact .inr ⟨hn, hn'⟩

/-- No record differs. -/
theorem recordAt_congr (h : t.AddsFile t' dir name []) (ht : t.Proper) (ht' : t'.Proper)
    (hname : name ≠ Git.gitDir) (root : PathName) (tracker : Tracker) (rel : RelPath) :
    recordAt t' root tracker rel = recordAt t root tracker rel := by
  rw [recordAt, recordAt, h.answer_congr ht ht' hname]
  rcases h.readText_eq_or ht (root.descend rel) defaultMaxSize with heq | ⟨hn, hn'⟩
  · rw [heq]
  · rw [hn, hn']
    rfl

/-- No file has other secrets. -/
theorem secrets_congr (h : t.AddsFile t' dir name []) (ht : t.Proper) (root : PathName)
    (maxSize : Int) (rel : RelPath) :
    (fileResult t' root maxSize rel).elim [] (·.secrets) =
      (fileResult t root maxSize rel).elim [] (·.secrets) := by
  rw [fileResult, fileResult]
  rcases h.readText_eq_or ht (root.descend rel) maxSize with heq | ⟨hn, hn'⟩
  · rw [heq]
  · rw [hn, hn']
    exact SecretFinding.detect_nil _

variable {root : PathName} {es : List (Text × FileNode)}

/-- Under its name in the directory nothing was found before, and now the file is. -/
theorem find?_child_eq (h : t.AddsFile t' dir name []) (ht : t.Proper)
    (hroot : t.find? root = .ok (some (dir, .dir es))) (hname : isEntryName name = true)
    (hlen : isNameTooLong name = false) :
    t.find? (root.child name) = .ok none ∧
      t'.find? (root.child name) = .ok (some (dir ++ [name], .file [])) := by
  obtain ⟨es', hroot'⟩ := h.find?_dir ht hroot
  have hfile := find?_child hroot' hname hlen h.present
  rcases h.find?_cases ht (root.child name) with ⟨heq, hno⟩ | ⟨loc, node, m, hn, hn', -⟩ |
    ⟨hn, -⟩ | ⟨-, hn'⟩
  · exact absurd (heq.symm.trans hfile) (hno _)
  · rw [hfile] at hn'
    cases hn'
    exact absurd rfl (h.ne_of_at? (at?_of_find? hn))
  · exact ⟨hn, hfile⟩
  · rw [hfile] at hn'
    cases hn'

end FileTree.AddsFile

/-! ## The file with options -/

section

variable {t t' : FileTree} {root : PathName} {base : Location} {es : List (Text × FileNode)}

/-- An empty file with options says what none says. -/
theorem ScanConfig.load_congr (hd : t.AddsFile t' base fileName []) (ht : t.Proper)
    (h : t.find? root = .ok (some (base, .dir es))) (workers : Option Text) (readers : Readers) :
    load t' root workers readers = load t root workers readers := by
  obtain ⟨hnone, hfile⟩ := hd.find?_child_eq ht h (by decide) (by decide)
  have hno : t.isFile? (root.child fileName) = .ok false := by
    rw [FileTree.isFile?, FileTree.isThere, hnone]
  have hyes : t'.isFile? (root.child fileName) = .ok true := by
    rw [FileTree.isFile?, FileTree.isThere, hfile]
  have hread : readers.documents.read (.ofBytes []) = .ok .null := readers.documents.read_empty
  have hentries : readEntries t' (root.child fileName) readers.documents =
      readEntries t (root.child fileName) readers.documents := by
    rw [readEntries, readEntries, FileTree.isFileAsked?, FileTree.isFileAsked?, hno, hyes]
    split
    · rfl
    · rw [FileTree.bytesOf?, hfile]
      simp only [hread]
      rfl
  rw [load, load, hentries]

theorem isKept_fileName_iff {globs : List Text} :
    FileTree.IsKept globs [ScanConfig.fileName] ↔
      Glob.excludesPath globs ScanConfig.fileName false = false :=
  ⟨fun h => h.pathKept, fun h => ⟨by simp, by decide, h⟩⟩

/-- The path of the file with options, unless globs leave it out. -/
def ownPaths (globs : List Text) : List RelPath :=
  if Glob.excludesPath globs ScanConfig.fileName false then [] else [[ScanConfig.fileName]]

/-- The file is a candidate unless globs leave it out. -/
theorem candidatesIn_ownPaths (hd : t.AddsFile t' base ScanConfig.fileName []) (ht : t.Proper)
    (ht' : t'.Proper) {node node' : FileNode} (hat : t.at? base = some node)
    (hat' : t'.at? base = some node') (globs : List Text) :
    ∃ before after, t.candidatesIn globs base [] node = before ++ after ∧
      t'.candidatesIn globs base [] node' = before ++ ownPaths globs ++ after := by
  obtain ⟨before, new, after, hall, hall', hkept, hleft⟩ :=
    hd.candidatesIn_eq ht ht' hat hat' globs
  refine ⟨before, after, hall, ?_⟩
  rw [hall', ownPaths]
  split
  · rename_i hx
    rw [hleft fun hk => by simp [isKept_fileName_iff.mp hk] at hx]
  · rename_i hx
    rw [hkept (isKept_fileName_iff.mpr (by simpa using hx))]

/-- The record of an empty file with options, unless globs leave it out. -/
def ownRecords (t : FileTree) (root : PathName) (tracker : Tracker) (globs : List Text) :
    List EnvFileRecord :=
  if Glob.excludesPath globs ScanConfig.fileName false then []
  else [EnvFileRecord.make ScanConfig.fileName
    ((answer t root tracker ScanConfig.fileName).toOption.getD false) []]

/-- That is the record of a path at which no text is. -/
theorem map_recordAt_ownPaths (h : t.find? (root.child ScanConfig.fileName) = .ok none)
    (tracker : Tracker) (globs : List Text) :
    ((ownPaths globs).filter isEnvFile).map (recordAt t root tracker) =
      ownRecords t root tracker globs := by
  have htext : t.readText (root.descend [ScanConfig.fileName]) FileTree.defaultMaxSize = .ok none :=
    FileTree.readText_of_none h _
  have hrecord : recordAt t root tracker [ScanConfig.fileName] =
      EnvFileRecord.make ScanConfig.fileName
        ((answer t root tracker ScanConfig.fileName).toOption.getD false) [] := by
    rw [recordAt, htext]
    rfl
  rw [ownPaths, ownRecords, ← hrecord]
  split <;> rfl

/-- The file has no secrets, and if it takes no other's place the others have the same. -/
theorem secrets_ownPaths (hd : t.AddsFile t' base ScanConfig.fileName []) (ht : t.Proper)
    (h : t.find? (root.child ScanConfig.fileName) = .ok none) {globs : List Text}
    {o : DirectoryScan.Options}
    (hplace : Glob.excludesPath globs ScanConfig.fileName false = true ∨ o.maxFiles = none)
    (maxSize : Int) (before after : List RelPath) :
    (ofFiles ((o.files (before ++ ownPaths globs ++ after)).map
        (fileResult t' root maxSize))).secrets =
      (ofFiles ((o.files (before ++ after)).map (fileResult t root maxSize))).secrets := by
  have htext : t.readText (root.descend [ScanConfig.fileName]) maxSize = .ok none :=
    FileTree.readText_of_none h _
  have hnone : fileResult t root maxSize [ScanConfig.fileName] = none := by
    rw [fileResult, htext]
    rfl
  simp only [secrets_ofFiles, List.flatMap_map, hd.secrets_congr ht]
  rw [ownPaths]
  split
  · rw [List.append_nil]
  · have hall : ∀ rels, o.files rels = rels := fun rels => by
      rw [DirectoryScan.Options.files, hplace.resolve_left ‹_›]
    simp [hall, hnone]

end

/-! ## Reports with more records -/

/-- Whether a report has some more records, and counts those that are under version control. -/
structure ScanReport.Gains (records : List EnvFileRecord) (r r' : ScanReport) : Prop where
  envFiles : ∃ before after, r.envFiles = before ++ after ∧
    r'.envFiles = before ++ records ++ after
  committed : r'.summary.committedEnvFiles =
    r.summary.committedEnvFiles + (records.countP (·.isCommitted) : Nat)

/-- Whether a report has the same secrets, and the same verdict unless one of some more records
makes it critical. -/
structure ScanReport.SameFindings (records : List EnvFileRecord) (r r' : ScanReport) : Prop where
  secrets : r'.secrets = r.secrets
  risk : r'.summary.overallRisk =
    if records.any (·.isCommitted) then .critical else r.summary.overallRisk

namespace ScanReport

variable {before records after : List EnvFileRecord}

theorem gains_make (secrets secrets' : List SecretFinding) (usages usages' : List EnvKeyUsage)
    (scanned skipped scanned' skipped' : Int) (history : List SecretFinding) :
    Gains records (make secrets usages (before ++ after) scanned skipped history)
      (make secrets' usages' (before ++ records ++ after) scanned' skipped' history) := by
  refine ⟨⟨before, after, rfl, rfl⟩, ?_⟩
  simp only [make, List.countP_append]
  omega

theorem sameFindings_make (secrets : List SecretFinding) (usages usages' : List EnvKeyUsage)
    (scanned skipped scanned' skipped' : Int) (history : List SecretFinding) :
    SameFindings records (make secrets usages (before ++ after) scanned skipped history)
      (make secrets usages' (before ++ records ++ after) scanned' skipped' history) := by
  refine ⟨rfl, ?_⟩
  simp only [make, List.countP_append]
  by_cases hany : records.any (·.isCommitted) = true
  · have hpos : 0 < records.countP (·.isCommitted) := by
      obtain ⟨record, hin, hc⟩ := List.any_eq_true.mp hany
      exact List.countP_pos_iff.mpr ⟨record, hin, hc⟩
    rw [if_pos hany, RiskLevel.overall, if_pos (.inr (by omega))]
  · have hzero : records.countP (·.isCommitted) = 0 :=
      List.countP_eq_zero.mpr fun record hin hc => hany (List.any_eq_true.mpr ⟨record, hin, hc⟩)
    rw [if_neg hany, hzero, Nat.add_zero]

end ScanReport

/-! ## Scans -/

namespace RepositoryScan

variable {t t' : FileTree} {root : PathName} {base : Location} {es : List (Text × FileNode)}

/-- What a report gains in a tree with an empty file with options. -/
structure GainsOwnRecord (t : FileTree) (root : PathName) (c : ScanConfig) (options : Options)
    (first second : ScanReport) : Prop where
  gains : first.Gains (ownRecords t root options.tracker (allGlobs c options.globs)) second
  sameFindings : Glob.excludesPath (allGlobs c options.globs) ScanConfig.fileName false = true ∨
      c.maxFiles = none ∧ options.maxFiles = none →
    first.SameFindings (ownRecords t root options.tracker (allGlobs c options.globs)) second

/-- Scans of the directory end alike but for the record. -/
theorem scanAt_gains_own_record (hd : t.AddsFile t' base ScanConfig.fileName []) (ht : t.Proper)
    (ht' : t'.Proper) (h : t.find? root = .ok (some (base, .dir es))) (c : ScanConfig)
    (options : Options) :
    EndAlike (fun first second => GainsOwnRecord t root c options first.report second.report)
      (scanAt t root c (allGlobs c options.globs) options).outcome
      (scanAt t' root c (allGlobs c options.globs) options).outcome := by
  obtain ⟨es', h'⟩ := hd.find?_dir ht h
  rcases Int.lt_or_le 0 c.maxWorkers with hw | hw
  · obtain ⟨asked, hfirst⟩ := outcome_scanAt ht h hw (allGlobs c options.globs) options
    obtain ⟨asked', hsecond⟩ := outcome_scanAt ht' h' hw (allGlobs c options.globs) options
    obtain ⟨before, after, hall, hall'⟩ := candidatesIn_ownPaths hd ht ht'
      (FileTree.at?_of_find? h) (FileTree.at?_of_find? h') (allGlobs c options.globs)
    obtain ⟨hnone, -⟩ := hd.find?_child_eq ht h (by decide) (by decide)
    have hrecord : recordAt t' root options.tracker = recordAt t root options.tracker :=
      funext fun rel => hd.recordAt_congr ht ht' (by decide) root options.tracker rel
    rw [hfirst, hsecond]
    simp only [hall, hall', hrecord, List.filter_append, List.map_append,
      map_recordAt_ownPaths hnone]
    refine .ok ⟨ScanReport.gains_make .., fun hfiles => ?_⟩
    have hplace : Glob.excludesPath (allGlobs c options.globs) ScanConfig.fileName false = true ∨
        (directoryOptions c (allGlobs c options.globs) options).maxFiles = none := by
      refine hfiles.imp_right fun ⟨hc, ho⟩ => ?_
      rw [directoryOptions, hc, ho]
      rfl
    rw [secrets_ownPaths hd ht hnone hplace]
    exact ScanReport.sameFindings_make ..
  · rw [scanAt_of_no_workers h hw, scanAt_of_no_workers h' hw]
    exact .error _

/-- **An empty file with options adds its record to a report.** If one is put in the directory of a
scan that had none, the scan ends as before, in the same failure or in a report that has the same
records in the same order, with that of the file among them unless globs leave it out. If it is left
out, or there is no limit on the number of files, the secrets are the same, and so is the verdict
unless the record is committed. With options and a worker there is a report. -/
theorem scan_gains_own_record {p : PathName} (hd : t.AddsFile t' base ScanConfig.fileName [])
    (ht : t.Proper) (ht' : t'.Proper) (hopen : openRoot t p = .ok root)
    (h : t.find? root = .ok (some (base, .dir es))) (config : Option ScanConfig)
    (workers : Option Text) (options : Options) :
    EndAlike (fun first second =>
          ∃ c, (configOf t root config workers options.readers).outcome = .ok c ∧
          GainsOwnRecord t root c options first.report second.report)
        (scan t p config workers options).outcome (scan t' p config workers options).outcome ∧
      ∀ c, (configOf t root config workers options.readers).outcome = .ok c → 0 < c.maxWorkers →
        ∃ first, (scan t p config workers options).outcome = .ok first := by
  refine ⟨?_, fun c hc hw => exists_scan_eq_ok ht hopen options hc hw⟩
  have hopen' : openRoot t' p = .ok root := by
    obtain ⟨hnull, hroot, -⟩ := openRoot_eq_ok_iff.mp hopen
    obtain ⟨es', h'⟩ := hd.find?_dir ht h
    exact openRoot_eq_ok_iff.mpr
      ⟨hnull, hroot.trans (hd.sameLinks.realPath_congr ht ht' p).symm, base, es', h'⟩
  have hconfig : configOf t' root config workers options.readers =
      configOf t root config workers options.readers := by
    cases config with
    | some c => rfl
    | none => exact ScanConfig.load_congr hd ht h workers options.readers
  rw [scan_eq, scan_eq, hopen, hopen']
  refine .bind rfl fun root' hroot => ?_
  cases hroot
  rw [hconfig]
  refine .bind rfl fun c hc => ?_
  exact (scanAt_gains_own_record hd ht ht' h c options).imp fun _ _ hgains => ⟨c, hc, hgains⟩

/-- A directory without files. -/
def emptyTree : FileTree := { root := .dir [], here := [] }

/-- The directory with an empty file with options. -/
def emptyTree' : FileTree := emptyTree.put [ScanConfig.fileName] (.file [])

/-- Whoever is asked knows of every file. -/
def allCommitted : Options where
  tracker := .given fun _ => .ok true

theorem addsFile_emptyTree : emptyTree.AddsFile emptyTree' [] ScanConfig.fileName [] := by
  have hdir : emptyTree.IsRealDir [] := ⟨[], rfl⟩
  exact .of_put hdir rfl

/-- The report on the directory gains a committed file, and becomes critical. -/
theorem scan_gains_own_record_committed :
    ∃ first second, (scan emptyTree ⟨.root, []⟩ none none allCommitted).outcome = .ok first ∧
      (scan emptyTree' ⟨.root, []⟩ none none allCommitted).outcome = .ok second ∧
      GainsOwnRecord emptyTree ⟨.root, []⟩ .default allCommitted first.report second.report ∧
      second.report.summary.overallRisk = .critical := by
  have hp : emptyTree.Proper := ⟨by decide, rfl, rfl⟩
  have hp' : emptyTree'.Proper := ⟨by decide, rfl, rfl⟩
  have hopen : openRoot emptyTree ⟨.root, []⟩ = .ok ⟨.root, []⟩ := rfl
  have hroot : emptyTree.find? ⟨.root, []⟩ = .ok (some ([], .dir [])) := rfl
  have hconfig : (configOf emptyTree ⟨.root, []⟩ none none {}).outcome = .ok .default := rfl
  obtain ⟨halike, hok⟩ :=
    scan_gains_own_record addsFile_emptyTree hp hp' hopen hroot none none allCommitted
  obtain ⟨first, hfirst⟩ := hok .default hconfig (by decide)
  obtain ⟨second, hsecond, c, hc, hgains⟩ := halike.exists_of_ok hfirst
  cases hconfig.symm.trans hc
  refine ⟨first, second, hfirst, hsecond, hgains, ?_⟩
  rw [(hgains.sameFindings (.inr ⟨rfl, rfl⟩)).risk]
  rfl

/-- A directory with a secret. -/
def secretTree : FileTree where
  root := .dir [("a.py".toList, .file (Utf8.encode "password='hunter22'".toList))]
  here := []

/-- What is in the directory with an empty file with options. -/
def secretEntries' : List (Text × FileNode) :=
  FileNode.setEntry ScanConfig.fileName (.file []) secretTree.root.entries

/-- The directory with an empty file with options. -/
def secretTree' : FileTree := { root := .dir secretEntries', here := [] }

/-- One file is scanned; whoever is asked says that none is committed. -/
def oneFile : Options where
  maxFiles := some 1
  tracker := .given fun _ => .ok false

theorem addsFile_secretTree : secretTree.AddsFile secretTree' [] ScanConfig.fileName [] := by
  have hdir : secretTree.IsRealDir [] := ⟨_, rfl⟩
  exact .of_put hdir rfl

/-- The new file comes before the one with the secret. -/
theorem candidatesIn_secretTree' :
    secretTree'.candidatesIn [] [] [] (.dir secretEntries') =
      [[ScanConfig.fileName], ["a.py".toList]] := by
  have hp : secretTree.Proper := ⟨by decide, rfl, rfl⟩
  have hp' : secretTree'.Proper := ⟨by decide, rfl, rfl⟩
  have hat : secretTree.at? [] = some secretTree.root := rfl
  have hat' : secretTree'.at? [] = some (.dir secretEntries') := rfl
  obtain ⟨before, after, hall, hall'⟩ :=
    candidatesIn_ownPaths addsFile_secretTree hp hp' hat hat' []
  have hone : secretTree.candidatesIn [] [] [] secretTree.root = [["a.py".toList]] := by
    decide +kernel
  have hown : ownPaths [] = [[ScanConfig.fileName]] := rfl
  have hord : (secretTree'.candidatesIn [] [] [] (.dir secretEntries')).Pairwise RelPath.Before :=
    FileTree.candidatesIn_pairwise hp'.names
  rw [hone] at hall
  rw [hall', hown] at hord ⊢
  rcases List.singleton_eq_append_iff.mp hall with ⟨rfl, rfl⟩ | ⟨rfl, rfl⟩
  · rfl
  · have hbefore : RelPath.Before ["a.py".toList] [ScanConfig.fileName] :=
      (List.pairwise_cons.mp hord).1 _ List.mem_cons_self
    exact absurd ((Text.le_iff _ _).mpr (.inr hbefore)) (by decide)

/-- Whether an empty file with options changes no record, no number of committed files and no
verdict. -/
def PassesOverOwnFile : Prop :=
  ∀ (t t' : FileTree) (root p : PathName) (base : Location) (es : List (Text × FileNode))
    (config : Option ScanConfig) (workers : Option Text) (options : Options),
    t.Proper → t'.Proper → openRoot t p = .ok root → t.find? root = .ok (some (base, .dir es)) →
      t.AddsFile t' base ScanConfig.fileName [] →
        EndAlike (fun first second => second.report.envFiles = first.report.envFiles ∧
            second.report.summary.committedEnvFiles = first.report.summary.committedEnvFiles ∧
            second.report.summary.overallRisk = first.report.summary.overallRisk)
          (scan t p config workers options).outcome (scan t' p config workers options).outcome

/-- The number of committed files changes if the file is one of them. -/
theorem not_passesOverOwnFile : ¬ PassesOverOwnFile := by
  intro h
  have hp : emptyTree.Proper := ⟨by decide, rfl, rfl⟩
  have hp' : emptyTree'.Proper := ⟨by decide, rfl, rfl⟩
  have hroot : emptyTree.find? ⟨.root, []⟩ = .ok (some ([], .dir [])) := rfl
  have hw : 0 < ScanConfig.default.maxWorkers := by decide
  obtain ⟨asked, hfirst⟩ := outcome_scanAt hp hroot hw
    (allGlobs .default allCommitted.globs) allCommitted
  have hpassed := h emptyTree emptyTree' ⟨.root, []⟩ ⟨.root, []⟩ [] [] (some .default) none
    allCommitted hp hp' rfl hroot addsFile_emptyTree
  rw [scan_some, scan_some] at hpassed
  change EndAlike _ (scanAt emptyTree ⟨.root, []⟩ .default _ allCommitted).outcome
    (scanAt emptyTree' ⟨.root, []⟩ .default _ allCommitted).outcome at hpassed
  obtain ⟨second, hsecond, -, hsame, -⟩ := hpassed.exists_of_ok hfirst
  have halike := scanAt_gains_own_record addsFile_emptyTree hp hp' hroot .default allCommitted
  obtain ⟨second', hsecond', hgains⟩ := halike.exists_of_ok hfirst
  cases hsecond.symm.trans hsecond'
  have hmore := hgains.gains.committed
  have hone : (ownRecords emptyTree ⟨.root, []⟩ allCommitted.tracker
    (allGlobs .default allCommitted.globs)).countP (·.isCommitted) = 1 := by decide
  omega

/-- Under the limit the secret is found first, and then not. -/
theorem scan_secretTree :
    ∃ first second,
      (scan secretTree ⟨.root, []⟩ (some .default) none oneFile).outcome = .ok first ∧
      (scan secretTree' ⟨.root, []⟩ (some .default) none oneFile).outcome = .ok second ∧
      first.report.summary.overallRisk = .medium ∧ second.report.summary.overallRisk = .none := by
  have hp : secretTree.Proper := ⟨by decide, rfl, rfl⟩
  have hp' : secretTree'.Proper := ⟨by decide, rfl, rfl⟩
  have hroot : secretTree.find? ⟨.root, []⟩ = .ok (some ([], secretTree.root)) := rfl
  have hroot' : secretTree'.find? ⟨.root, []⟩ = .ok (some ([], .dir secretEntries')) := rfl
  have hw : 0 < ScanConfig.default.maxWorkers := by decide
  obtain ⟨asked, hfirst⟩ := outcome_scanAt hp hroot hw (allGlobs .default oneFile.globs) oneFile
  obtain ⟨asked', hsecond⟩ := outcome_scanAt hp' hroot' hw (allGlobs .default oneFile.globs) oneFile
  rw [scan_some, scan_some]
  refine ⟨_, _, hfirst, hsecond, ?_, ?_⟩
  · dsimp only
    decide +kernel
  · have hglobs : allGlobs .default oneFile.globs = [] := rfl
    rw [hglobs, candidatesIn_secretTree']
    dsimp only
    decide +kernel

/-- A committed file counts, and one that is not takes the place of another one under a limit. -/
theorem scan_counts_own_file :
    ¬ PassesOverOwnFile ∧ secretTree.AddsFile secretTree' [] ScanConfig.fileName [] ∧
      ∃ first second,
        (scan secretTree ⟨.root, []⟩ (some .default) none oneFile).outcome = .ok first ∧
        (scan secretTree' ⟨.root, []⟩ (some .default) none oneFile).outcome = .ok second ∧
        first.report.summary.overallRisk = .medium ∧ second.report.summary.overallRisk = .none :=
  ⟨not_passesOverOwnFile, addsFile_secretTree, scan_secretTree⟩

end RepositoryScan
end EnvAudit
