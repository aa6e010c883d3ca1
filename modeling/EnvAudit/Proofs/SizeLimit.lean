import EnvAudit.Proofs.FileIsolation
import EnvAudit.Proofs.SameLinks
import Mathlib.Data.List.Forall2

/-!
# Files beyond the size limit

What is in a file beyond the size limit of the configuration counts for no finding, no usage and no
number of a report. But the inventory reads environment files up to a limit of its own, so the
keys of such a file are in its record, unless it is beyond that limit too (`scan_beyond_limit`). So
the limit does not hold for the whole report (`scan_reads_beyond_limit`).
-/
namespace EnvAudit

namespace FileTree

/-! ## The text of a large file -/

/-- Whether only the bytes of one file differ, which is larger than a limit in both trees. -/
structure DifferBeyond (t t' : FileTree) (loc : Location) (limit : Int) : Prop where
  differIn : t.DifferIn t' loc
  large : ∀ bytes, t.at? loc = some (.file bytes) → limit < bytes.length
  large' : ∀ bytes, t'.at? loc = some (.file bytes) → limit < bytes.length

theorem readText_of_large {t : FileTree} {p : PathName} {loc : Location} {bytes : List UInt8}
    {limit : Int} (h : t.find? p = .ok (some (loc, .file bytes))) (hl : limit < bytes.length) :
    t.readText p limit = .ok none := by
  have hnone : textWithin limit bytes = none := if_pos hl
  rw [readText, bytesOf?, h]
  simp only [hnone]

/-- Beyond the limit neither file has a text. -/
theorem DifferBeyond.readText_eq {t t' : FileTree} {loc : Location} {limit : Int}
    (h : t.DifferBeyond t' loc limit) (p : PathName) :
    t'.readText p limit = t.readText p limit := by
  by_cases hp : ∃ node, t.find? p = .ok (some (loc, node))
  · obtain ⟨node, hf⟩ := hp
    obtain ⟨node', hf', -⟩ := h.differIn.sameShape.find?_congr hf
    obtain ⟨bytes, hat⟩ := h.differIn.isFile
    obtain ⟨bytes', hat'⟩ := h.differIn.isFile'
    obtain rfl := Option.some.inj ((at?_of_find? hf).symm.trans hat)
    obtain rfl := Option.some.inj ((at?_of_find? hf').symm.trans hat')
    rw [readText_of_large hf (h.large _ hat), readText_of_large hf' (h.large' _ hat')]
  · exact h.differIn.readText_eq (fun node hf => hp ⟨node, hf⟩) limit

end FileTree

/-! ## Reports with other keys -/

/-- Whether reports are the same but for the keys of some records. -/
structure ScanReport.SameButKeys (differs : EnvFileRecord → Prop) (r r' : ScanReport) : Prop where
  summary : r'.summary = r.summary
  envKeys : r'.envKeys = r.envKeys
  secrets : r'.secrets = r.secrets
  envFiles : List.Forall₂ (fun a b => b = { a with keysFound := b.keysFound, keys := b.keys } ∧
    (b = a ∨ differs a)) r.envFiles r'.envFiles
  recommendations : r'.recommendations = r.recommendations

theorem map_eq_of_forall₂ {α β : Type} {R : α → α → Prop} {f : α → β}
    (hR : ∀ a b, R a b → f b = f a) {xs ys : List α} (h : List.Forall₂ R xs ys) :
    ys.map f = xs.map f := by
  induction h with
  | nil => rfl
  | cons hab _ ih => rw [List.map_cons, List.map_cons, hR _ _ hab, ih]

/-- Neither the numbers of a report nor its advice depend on keys. -/
theorem ScanReport.sameButKeys_make {differs : EnvFileRecord → Prop}
    {records records' : List EnvFileRecord}
    (h : List.Forall₂ (fun a b => b = { a with keysFound := b.keysFound, keys := b.keys } ∧
      (b = a ∨ differs a)) records records')
    (secrets : List SecretFinding) (usages : List EnvKeyUsage) (scanned skipped : Int)
    (history : List SecretFinding) :
    SameButKeys differs (make secrets usages records scanned skipped history)
      (make secrets usages records' scanned skipped history) := by
  have hpaths : records'.map (·.path) = records.map (·.path) :=
    map_eq_of_forall₂ (fun a b hab => by rw [hab.1]) h
  have hmarks : records'.map (·.isCommitted) = records.map (·.isCommitted) :=
    map_eq_of_forall₂ (fun a b hab => by rw [hab.1]) h
  have hcount : records'.countP (·.isCommitted) = records.countP (·.isCommitted) := by
    have := congrArg (List.countP id) hmarks
    rwa [List.countP_map, List.countP_map] at this
  have hany : records'.any (·.isCommitted) = records.any (·.isCommitted) := by
    have := congrArg (List.any · id) hmarks
    rwa [List.any_map, List.any_map] at this
  refine ⟨?_, rfl, rfl, h, ?_⟩
  · simp only [make, hcount, h.length_eq]
  · simp only [make, Recommendation.forScan, Recommendation.untrackEnvFiles,
      Recommendation.generateExample, hany, hpaths]

namespace RepositoryScan

open DirectoryScan Inventory

variable {t t' : FileTree} {loc : Location} {root : PathName}

/-! ## Scans that differ beyond a limit -/

theorem openRoot_congr (h : FileTree.SameShape t t') (ht : t.Proper) (ht' : t'.Proper)
    (p : PathName) : openRoot t' p = openRoot t p := by
  rw [openRoot, openRoot, h.resolve_congr ht ht']
  simp only [checkRoot_congr h]

/-- Whether a record is that of the file at a location, or of a link to it. -/
def IsRecordOf (t : FileTree) (root : PathName) (loc : Location) (record : EnvFileRecord) : Prop :=
  ∃ rel node, record.path = shownPath rel ∧ t.find? (root.descend rel) = .ok (some (loc, node))

/-- What is in a file counts for no answer. -/
theorem answer_eq (hd : t.DifferIn t' loc) (ht : t.Proper) (ht' : t'.Proper) (root : PathName)
    (tracker : Tracker) (path : Text) : answer t' root tracker path = answer t root tracker path :=
  answer_congr ⟨hd.others.repositories, fun _ => hd.sameShape.shape _⟩ hd.sameShape.sameLinks ht ht'
    (Git.workingDir_congr hd.sameShape root) tracker path

/-- Only the keys of a record are read from its file. -/
theorem recordAt_congr (hd : t.DifferIn t' loc) (ht : t.Proper) (ht' : t'.Proper)
    (tracker : Tracker) (rel : RelPath) :
    recordAt t' root tracker rel = { recordAt t root tracker rel with
        keysFound := (recordAt t' root tracker rel).keysFound,
        keys := (recordAt t' root tracker rel).keys } ∧
      (recordAt t' root tracker rel = recordAt t root tracker rel ∨
        IsRecordOf t root loc (recordAt t root tracker rel)) := by
  have hanswer := answer_eq hd ht ht' root tracker (shownPath rel)
  constructor
  · rw [recordAt, recordAt, hanswer]
    rfl
  · by_cases hp : ∃ node, t.find? (root.descend rel) = .ok (some (loc, node))
    · obtain ⟨node, hf⟩ := hp
      exact .inr ⟨rel, node, rfl, hf⟩
    · refine .inl ?_
      rw [recordAt, recordAt, hanswer, hd.readText_eq fun node hf => hp ⟨node, hf⟩]

/-- Where the inventory cannot read the file either, no record differs. -/
theorem recordAt_congr_of_beyond (hd : t.DifferBeyond t' loc FileTree.defaultMaxSize)
    (ht : t.Proper) (ht' : t'.Proper) (tracker : Tracker) (rel : RelPath) :
    recordAt t' root tracker rel = recordAt t root tracker rel := by
  rw [recordAt, recordAt, answer_eq hd.differIn ht ht', hd.readText_eq]

/-- Scans of the directory end alike but for the keys. -/
theorem scanAt_beyond_limit {config : ScanConfig} (hd : t.DifferBeyond t' loc config.maxFileSize)
    (ht : t.Proper) (ht' : t'.Proper) {base : Location} {es : List (Text × FileNode)}
    (h : t.find? root = .ok (some (base, .dir es))) (globs : List Text) (options : Options) :
    EndAlike (fun first second =>
        first.report.SameButKeys (IsRecordOf t root loc) second.report ∧
          (t.DifferBeyond t' loc FileTree.defaultMaxSize → second.report = first.report))
      (scanAt t root config globs options).outcome
      (scanAt t' root config globs options).outcome := by
  have hshape := hd.differIn.sameShape
  obtain ⟨es', h'⟩ := hshape.find?_dir h
  rcases Int.lt_or_le 0 config.maxWorkers with hw | hw
  · obtain ⟨asked, hfirst⟩ := outcome_scanAt ht h hw globs options
    obtain ⟨asked', hsecond⟩ := outcome_scanAt ht' h' hw globs options
    have hall := hshape.candidatesIn_congr ht ht' (FileTree.at?_of_find? h)
      (FileTree.at?_of_find? h') globs
    have hresult : fileResult t' root config.maxFileSize = fileResult t root config.maxFileSize :=
      funext fun rel => by rw [fileResult, fileResult, hd.readText_eq]
    rw [hfirst, hsecond, hall, hresult]
    refine .ok ⟨ScanReport.sameButKeys_make ?_ .., fun hbeyond => ?_⟩
    · rw [List.forall₂_map_left_iff, List.forall₂_map_right_iff, List.forall₂_same]
      exact fun rel _ => recordAt_congr hd.differIn ht ht' options.tracker rel
    · have hrecord : recordAt t' root options.tracker = recordAt t root options.tracker :=
        funext fun rel => recordAt_congr_of_beyond hbeyond ht ht' options.tracker rel
      simp only [hrecord]
  · rw [scanAt_of_no_workers h hw, scanAt_of_no_workers h' hw]
    exact .error _

/-- **A file beyond the size limit counts for nothing but the keys of its record.** If trees differ
in the bytes of one file, which is beyond the size limit of the configuration in both, scans of a
repository end alike: in one failure, or in reports that are the same but for the keys in the
records of that file. If the file is beyond the limit of the inventory too, the reports are the
same. With a root and a worker there are reports. -/
theorem scan_beyond_limit {config : ScanConfig} (hd : t.DifferBeyond t' loc config.maxFileSize)
    (ht : t.Proper) (ht' : t'.Proper) (p : PathName) (workers : Option Text) (options : Options) :
    EndAlike (fun first second =>
          (∃ root, openRoot t p = .ok root ∧
            first.report.SameButKeys (IsRecordOf t root loc) second.report) ∧
          (t.DifferBeyond t' loc FileTree.defaultMaxSize → second.report = first.report))
        (scan t p (some config) workers options).outcome
        (scan t' p (some config) workers options).outcome ∧
      ∀ root, openRoot t p = .ok root → 0 < config.maxWorkers →
        ∃ first, (scan t p (some config) workers options).outcome = .ok first := by
  refine ⟨?_, fun root hopen hw => exists_scan_eq_ok ht hopen options rfl hw⟩
  rw [scan_some, scan_some, openRoot_congr hd.differIn.sameShape ht ht']
  refine .bind rfl fun root hopen => ?_
  obtain ⟨base, es, h⟩ := find?_of_openRoot hopen
  refine (scanAt_beyond_limit hd ht ht' h (allGlobs config options.globs) options).imp ?_
  exact fun first second hsame => ⟨⟨root, hopen, hsame.1⟩, hsame.2⟩

/-- A project with one environment file. -/
def envTree : FileTree where
  root := .dir [(".env".toList, .file (Utf8.encode "A=1".toList))]
  here := []

/-- The project with another environment file of the same size. -/
def envTree' : FileTree := envTree.put [".env".toList] (.file (Utf8.encode "B=1".toList))

/-- A configuration that no file with text is small enough for. -/
def tinyConfig : ScanConfig := { ScanConfig.default with maxFileSize := 0 }

/-- Whoever is asked knows of no file. -/
def nobodyAsked : Options where
  tracker := .given fun path => .error path

theorem differBeyond_envTree :
    envTree.DifferBeyond envTree' [".env".toList] tinyConfig.maxFileSize where
  differIn := FileTree.differIn_put rfl _
  large := by
    rintro bytes ⟨⟩
    decide
  large' := by
    rintro bytes ⟨⟩
    decide

/-- The scans of both projects report the same but for the keys. -/
theorem scan_beyond_limit_env :
    ∃ first second, (scan envTree ⟨.root, []⟩ (some tinyConfig) none nobodyAsked).outcome =
        .ok first ∧
      (scan envTree' ⟨.root, []⟩ (some tinyConfig) none nobodyAsked).outcome = .ok second ∧
      first.report.SameButKeys (IsRecordOf envTree ⟨.root, []⟩ [".env".toList]) second.report := by
  have hp : envTree.Proper := ⟨by decide, rfl, rfl⟩
  have hp' : envTree'.Proper := ⟨by decide, rfl, rfl⟩
  have hopen : openRoot envTree ⟨.root, []⟩ = .ok ⟨.root, []⟩ := rfl
  obtain ⟨halike, hok⟩ :=
    scan_beyond_limit differBeyond_envTree hp hp' ⟨.root, []⟩ none nobodyAsked
  obtain ⟨first, hfirst⟩ := hok _ hopen (by decide)
  obtain ⟨second, hsecond, ⟨root, hroot, hkeys⟩, -⟩ := halike.exists_of_ok hfirst
  cases hopen.symm.trans hroot
  exact ⟨first, second, hfirst, hsecond, hkeys⟩

/-- Whether no report depends on what is in a file beyond the size limit of the configuration. -/
def HoldsLimit : Prop :=
  ∀ (t t' : FileTree) (loc : Location) (config : ScanConfig) (p : PathName) (options : Options),
    t.Proper → t'.Proper → t.DifferBeyond t' loc config.maxFileSize →
      EndAlike (fun first second => second.report = first.report)
        (scan t p (some config) none options).outcome
        (scan t' p (some config) none options).outcome

/-- The keys of an environment file beyond the limit are in the report. -/
theorem scan_reads_beyond_limit : ¬ HoldsLimit := by
  intro h
  have hp : envTree.Proper := ⟨by decide, rfl, rfl⟩
  have hp' : envTree'.Proper := ⟨by decide, rfl, rfl⟩
  have hroot : envTree.find? ⟨.root, []⟩ = .ok (some ([], envTree.root)) := rfl
  have hroot' : envTree'.find? ⟨.root, []⟩ = .ok (some ([], envTree'.root)) := rfl
  have hw : 0 < tinyConfig.maxWorkers := by decide
  obtain ⟨asked, hfirst⟩ :=
    outcome_scanAt hp hroot hw (allGlobs tinyConfig nobodyAsked.globs) nobodyAsked
  obtain ⟨asked', hsecond⟩ :=
    outcome_scanAt hp' hroot' hw (allGlobs tinyConfig nobodyAsked.globs) nobodyAsked
  have halike := h envTree envTree' _ tinyConfig ⟨.root, []⟩ nobodyAsked hp hp' differBeyond_envTree
  rw [scan_some, scan_some] at halike
  change EndAlike _ (scanAt envTree ⟨.root, []⟩ tinyConfig _ nobodyAsked).outcome
    (scanAt envTree' ⟨.root, []⟩ tinyConfig _ nobodyAsked).outcome at halike
  rw [hfirst, hsecond] at halike
  have hall := differBeyond_envTree.differIn.sameShape.candidatesIn_congr hp hp'
    (FileTree.at?_of_find? hroot) (FileTree.at?_of_find? hroot')
    (allGlobs tinyConfig nobodyAsked.globs)
  cases halike with
  | ok hsame =>
    have hfiles : ((envTree'.candidatesIn _ [] [] envTree'.root).filter isEnvFile).map
        (recordAt envTree' ⟨.root, []⟩ nobodyAsked.tracker) =
          ((envTree.candidatesIn _ [] [] envTree.root).filter isEnvFile).map
            (recordAt envTree ⟨.root, []⟩ nobodyAsked.tracker) := congrArg ScanReport.envFiles hsame
    rw [hall] at hfiles
    have hfile : envTree.HasFile [] [".env".toList] := ⟨[], _, _, rfl, rfl, rfl⟩
    have henv := List.map_inj_left.mp hfiles [".env".toList] (List.mem_filter.mpr
      ⟨(FileTree.mem_candidatesIn_iff hp (FileTree.at?_of_find? hroot) _).mpr
        ⟨hfile, by decide, by decide, by decide⟩, by decide⟩)
    revert henv
    decide +kernel

end RepositoryScan
end EnvAudit
