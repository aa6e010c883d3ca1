import EnvAudit.Proofs.OneChange
import EnvAudit.Proofs.ScanResult
import EnvAudit.Proofs.UsageMerge
import Mathlib.Data.List.Sort

/-!
# What is in one file does not count for the others

A file is found and scanned by itself. If two trees differ in the bytes of one file only, whatever
these are, a scan ends alike in both, and what it gives for all other files is the same
(`scan_isolated`): the same findings in the same order, for each variable the same places in the
same order, and as many files looked at, of which at most this one is scanned in one tree and
skipped in the other. The exception is a candidate that is a link to the file: it shows the bytes
of the file under a name of its own.
-/
namespace EnvAudit

/-! ## Candidates -/

namespace FileTree

open FileNode

/-- In trees of one shape a walk yields the same, whatever is in the files. -/
theorem SameShape.candidatesIn_congr {t t' : FileTree} (h : SameShape t t') (ht : t.Proper)
    (ht' : t'.Proper) {loc : Location} {node node' : FileNode} (hat : t.at? loc = some node)
    (hat' : t'.at? loc = some node') (globs : List Text) :
    t'.candidatesIn globs loc [] node' = t.candidatesIn globs loc [] node := by
  refine List.Pairwise.eq_of_mem_iff (candidatesIn_pairwise (ht'.isProper_of_at? hat'))
    (candidatesIn_pairwise (ht.isProper_of_at? hat)) fun path => ?_
  rw [mem_candidatesIn_iff ht' hat', mem_candidatesIn_iff ht hat, h.hasFile_iff]

end FileTree

/-! ## What is found in a text -/

/-- Whether all that was found in a text is shown in one file. -/
structure ContentScan.IsIn (s : ContentScan) (file : Text) : Prop where
  secrets : ∀ f ∈ s.secrets, f.file = file
  locations : ∀ name, ∀ l ∈ EnvKeyUsage.locationsOf name s.usages, l.file = file

theorem SecretFinding.file_of_mem_inLines {rule : SecretRule} {file : Text} {n : Nat}
    {lines : List Text} {f : SecretFinding} (h : f ∈ inLines rule file n lines) : f.file = file := by
  induction lines generalizing n with
  | nil => simp [inLines] at h
  | cons line rest ih =>
    rcases List.mem_append.mp h with h | h
    · obtain ⟨hit, -, rfl⟩ := List.mem_map.mp h
      rfl
    · exact ih h

theorem EnvKeyUsage.file_of_mem_inLines {rules : List AccessRule} {file : Text} {n : Nat}
    {lines : List Text} {u : EnvKeyUsage} (h : u ∈ inLines rules file n lines) :
    ∀ l ∈ u.locations, l.file = file := by
  induction lines generalizing n with
  | nil => simp [inLines] at h
  | cons line rest ih =>
    rcases List.mem_append.mp h with h | h
    · obtain ⟨reading, -, rfl⟩ := List.mem_map.mp h
      simp
    · exact ih h

theorem ContentScan.isIn_scan (content file : Text) : (scan content file).IsIn file where
  secrets f hf := by
    obtain ⟨rule, -, hf⟩ := List.mem_flatMap.mp hf
    exact SecretFinding.file_of_mem_inLines hf
  locations name l hl := by
    rw [scan, EnvKeyUsage.locationsOf_find] at hl
    obtain ⟨u, hu, hl⟩ := EnvKeyUsage.mem_locationsOf hl
    exact EnvKeyUsage.file_of_mem_inLines hu l hl

/-! ## Results with one exchanged -/

namespace DirectoryScan

theorem secrets_ofFiles (rs : List (Option ContentScan)) :
    (ofFiles rs).secrets = rs.flatMap fun r => r.elim [] (·.secrets) := by
  induction rs with
  | nil => rfl
  | cons r rs ih =>
    rw [List.flatMap_cons, ← ih]
    cases r <;> simp [ofFiles]

theorem locationsOf_ofFiles (name : Text) (rs : List (Option ContentScan)) :
    EnvKeyUsage.locationsOf name (ofFiles rs).usages =
      rs.flatMap fun r => r.elim [] fun s => EnvKeyUsage.locationsOf name s.usages := by
  rw [ofFiles, EnvKeyUsage.locationsOf_merge]
  induction rs with
  | nil => rfl
  | cons r rs ih =>
    rw [List.flatMap_cons, ← ih]
    cases r <;> simp

theorem filesScanned_ofFiles (rs : List (Option ContentScan)) :
    (ofFiles rs).filesScanned = rs.countP (·.isSome) := by
  induction rs with
  | nil => rfl
  | cons r rs ih => cases r <;> simp_all [ofFiles]

theorem filesScanned_add_filesSkipped (rs : List (Option ContentScan)) :
    (ofFiles rs).filesScanned + (ofFiles rs).filesSkipped = rs.length :=
  Nat.add_sub_of_le (List.length_filterMap_le id rs)

/-- Whether two scans are the same but for one file: the same secrets elsewhere, the same places
elsewhere that read a variable, and as many files, but for one that may be scanned or skipped. -/
structure SameBut (file : Text) (s s' : DirectoryScan) : Prop where
  secrets : s'.secrets.filter (·.file != file) = s.secrets.filter (·.file != file)
  locations : ∀ name, (EnvKeyUsage.locationsOf name s'.usages).filter (·.file != file) =
    (EnvKeyUsage.locationsOf name s.usages).filter (·.file != file)
  files : s'.filesScanned + s'.filesSkipped = s.filesScanned + s.filesSkipped
  scannedLe : s'.filesScanned ≤ s.filesScanned + 1
  scannedGe : s.filesScanned ≤ s'.filesScanned + 1

theorem SameBut.refl (file : Text) (s : DirectoryScan) : SameBut file s s :=
  ⟨rfl, fun _ => rfl, rfl, Nat.le_succ _, Nat.le_succ _⟩

/-- Whether the result of a file, if it has one, is shown in that file. -/
def IsResultOf (r : Option ContentScan) (file : Text) : Prop := ∀ s ∈ r, ContentScan.IsIn s file

theorem filter_secrets_of_isResultOf {r : Option ContentScan} {file : Text}
    (h : IsResultOf r file) :
    (r.elim [] (·.secrets)).filter (·.file != file) = [] := by
  cases r with
  | none => rfl
  | some s => simpa using (h s rfl).secrets

theorem filter_locations_of_isResultOf {r : Option ContentScan} {file : Text}
    (h : IsResultOf r file) (name : Text) :
    (r.elim [] fun s => EnvKeyUsage.locationsOf name s.usages).filter (·.file != file) = [] := by
  cases r with
  | none => rfl
  | some s => simpa using (h s rfl).locations name

/-- **The result of one file does not count for the others.** -/
theorem sameBut_ofFiles {r r' : Option ContentScan} {file : Text} (h : IsResultOf r file)
    (h' : IsResultOf r' file) (before after : List (Option ContentScan)) :
    SameBut file (ofFiles (before ++ r :: after)) (ofFiles (before ++ r' :: after)) where
  secrets := by
    simp only [secrets_ofFiles, List.flatMap_append, List.flatMap_cons, List.filter_append,
      filter_secrets_of_isResultOf h, filter_secrets_of_isResultOf h']
  locations name := by
    simp only [locationsOf_ofFiles, List.flatMap_append, List.flatMap_cons, List.filter_append,
      filter_locations_of_isResultOf h, filter_locations_of_isResultOf h']
  files := by
    simp only [filesScanned_add_filesSkipped, List.length_append, List.length_cons]
  scannedLe := by
    simp only [filesScanned_ofFiles, List.countP_append, List.countP_cons]
    split <;> split <;> omega
  scannedGe := by
    simp only [filesScanned_ofFiles, List.countP_append, List.countP_cons]
    split <;> split <;> omega

/-- If one file has another result and no other has, the scans are the same but for that file. -/
theorem sameBut_ofFiles_map {files : List RelPath} (hnodup : files.Nodup)
    {result result' : RelPath → Option ContentScan} {changed : RelPath}
    (hsame : ∀ rel ∈ files, rel ≠ changed → result' rel = result rel) {file : Text}
    (h : IsResultOf (result changed) file) (h' : IsResultOf (result' changed) file) :
    SameBut file (ofFiles (files.map result)) (ofFiles (files.map result')) := by
  by_cases hin : changed ∈ files
  · obtain ⟨before, after, rfl⟩ := List.append_of_mem hin
    obtain ⟨-, hafter, hbefore⟩ := List.nodup_append.mp hnodup
    have hmapBefore : before.map result' = before.map result :=
      List.map_congr_left fun rel hrel =>
        hsame rel (List.mem_append_left _ hrel) (hbefore rel hrel changed List.mem_cons_self)
    have hmapAfter : after.map result' = after.map result := by
      refine List.map_congr_left fun rel hrel => hsame rel (by simp [hrel]) ?_
      rintro rfl
      exact (List.nodup_cons.mp hafter).1 hrel
    rw [List.map_append, List.map_append, List.map_cons, List.map_cons, hmapBefore, hmapAfter]
    exact sameBut_ofFiles h h' _ _
  · have hmap : files.map result' = files.map result := by
      refine List.map_congr_left fun rel hrel => hsame rel hrel ?_
      rintro rfl
      exact hin hrel
    rw [hmap]
    exact .refl _ _

/-! ## Scans of trees that differ in one file -/

section

variable {t t' : FileTree} {root : PathName} {loc base : Location}

/-- What is shown of a location below a directory: the path from there on. -/
def shownBelow (base loc : Location) : Text := (PathName.mk .root loc).display ⟨.root, base⟩

theorem shownBelow_append (base : Location) (rel : RelPath) :
    shownBelow base (base ++ rel) = shownPath rel := display_descend ⟨.root, base⟩ rel

/-- Whether no link among the files of a scan leads to a location. -/
def NoLinkTo (t : FileTree) (root : PathName) (options : Options) (loc : Location) : Prop :=
  ∀ base top, t.find? root = .ok (some (base, top)) →
    ∀ rel ∈ options.files (t.candidatesIn options.globs base [] top), ∀ target,
      t.at? (base ++ rel) = some (.link target) →
        ∀ node, t.find? (root.descend rel) ≠ .ok (some (loc, node))

theorem checkRoot_congr (h : FileTree.SameShape t t') (root : PathName) :
    checkRoot t' root = checkRoot t root := by
  rw [checkRoot, checkRoot, FileTree.exists?, FileTree.exists?, FileTree.isDir?, FileTree.isDir?,
    h.isThere_congr root fun _ => rfl, h.isThere_congr root FileNode.isDir_shape]

theorem isResultOf_fileResult (t : FileTree) (root : PathName) (maxSize : Int) (rel : RelPath) :
    IsResultOf (fileResult t root maxSize rel) (shownPath rel) := by
  unfold fileResult
  split
  · rintro s hs
    obtain ⟨content, -, rfl⟩ := Option.mem_map.mp hs
    exact ContentScan.isIn_scan content (shownPath rel)
  · rintro s ⟨⟩

/-- A file that is not the one in which the trees differ has the same result in both. -/
theorem fileResult_eq (hd : t.DifferIn t' loc) (ht : t.Proper) {top : FileNode}
    (h : t.find? root = .ok (some (base, top))) {options : Options}
    (hlinks : NoLinkTo t root options loc) {rel : RelPath}
    (hrel : rel ∈ options.files (t.candidatesIn options.globs base [] top))
    (hne : base ++ rel ≠ loc) (maxSize : Int) :
    fileResult t' root maxSize rel = fileResult t root maxSize rel := by
  have hfile := (FileTree.mem_candidatesIn_iff ht (FileTree.at?_of_find? h) rel).mp
    ((options.files_sublist _).subset hrel)
  obtain ⟨⟨dirs, name, node, -, hat, -⟩, -⟩ := hfile
  have hother : ∀ found, t.find? (root.descend rel) ≠ .ok (some (loc, found)) := by
    intro found hf
    by_cases hlink : ∃ target, node = .link target
    · obtain ⟨target, rfl⟩ := hlink
      exact hlinks base top h rel hrel target hat found hf
    · have hself := FileTree.eq_of_find?_descend ht h hat (fun target e => hlink ⟨target, e⟩) hf
      exact hne hself.symm
  rw [fileResult, fileResult, hd.readText_eq hother]

/-- Scans of the same directory differ in one result at most. -/
theorem sameBut_results (hd : t.DifferIn t' loc) (ht : t.Proper) {top : FileNode}
    (h : t.find? root = .ok (some (base, top))) {options : Options}
    (hlinks : NoLinkTo t root options loc) :
    SameBut (shownBelow base loc)
      (ofFiles ((options.files (t.candidatesIn options.globs base [] top)).map
        (fileResult t root options.maxSize)))
      (ofFiles ((options.files (t.candidatesIn options.globs base [] top)).map
        (fileResult t' root options.maxSize))) := by
  have hnodup : (options.files (t.candidatesIn options.globs base [] top)).Nodup :=
    (options.files_sublist _).nodup
      (FileTree.nodup_candidatesIn (ht.isProper_of_at? (FileTree.at?_of_find? h)))
  by_cases hbelow : ∃ changed, base ++ changed = loc
  · obtain ⟨changed, rfl⟩ := hbelow
    rw [shownBelow_append]
    refine sameBut_ofFiles_map hnodup (fun rel hrel hne => ?_)
      (isResultOf_fileResult t root _ changed) (isResultOf_fileResult t' root _ changed)
    exact fileResult_eq hd ht h hlinks hrel (fun e => hne (List.append_cancel_left e)) _
  · have hmap := List.map_congr_left fun rel hrel =>
      fileResult_eq hd ht h hlinks hrel (fun e => hbelow ⟨rel, e⟩) options.maxSize
    rw [hmap]
    exact .refl _ _

/-- **What is in one file does not count for the others.** Scans of trees that differ in the bytes
of one file fail alike; and where a directory is at the root and there is a worker they do not fail,
and their results are the same but for that file. -/
theorem scan_isolated (hd : t.DifferIn t' loc) (ht : t.Proper) (ht' : t'.Proper)
    (options : Options) (hlinks : NoLinkTo t root options loc) :
    (∀ e, scan t root options = .error e ↔ scan t' root options = .error e) ∧
      ∀ base es, t.find? root = .ok (some (base, .dir es)) → 0 < options.maxWorkers →
        ∃ s s', scan t root options = .ok s ∧ scan t' root options = .ok s' ∧
          SameBut (shownBelow base loc) s s' := by
  have hresults : ∀ base es, t.find? root = .ok (some (base, .dir es)) → 0 < options.maxWorkers →
      ∃ s s', scan t root options = .ok s ∧ scan t' root options = .ok s' ∧
        SameBut (shownBelow base loc) s s' := by
    intro base es h hw
    obtain ⟨top', h', hs⟩ := hd.sameShape.find?_congr h
    obtain ⟨es', rfl⟩ : ∃ es', top' = .dir es' := by
      cases top' <;> simp_all [FileNode.shape]
    have hall := hd.sameShape.candidatesIn_congr ht ht' (FileTree.at?_of_find? h)
      (FileTree.at?_of_find? h') options.globs
    refine ⟨_, _, scan_of_dir ht h options hw, scan_of_dir ht' h' options hw, ?_⟩
    rw [hall]
    exact sameBut_results hd ht h hlinks
  refine ⟨fun e => ?_, hresults⟩
  have hroot := checkRoot_congr hd.sameShape root
  cases hc : checkRoot t root with
  | error e' =>
    rw [scan_of_checkRoot_error hc, scan_of_checkRoot_error (hroot.trans hc)]
  | ok u =>
    obtain ⟨base, es, h⟩ := checkRoot_ok_iff.mp hc
    rcases Int.lt_or_le 0 options.maxWorkers with hw | hw
    · obtain ⟨s, s', hscan, hscan', -⟩ := hresults base es h hw
      rw [hscan, hscan']
      simp
    · obtain ⟨base', es', h'⟩ := checkRoot_ok_iff.mp (hroot.trans hc)
      rw [scan_of_no_workers h hw, scan_of_no_workers h' hw]

end

/-- A project with a program, notes and a link to the program. -/
def notesTree : FileTree where
  root := .dir [("app.py".toList, .file (Utf8.encode "os.getenv('HOME')".toList)),
    ("notes.txt".toList, .file (Utf8.encode "none".toList)),
    ("main.py".toList, .link "app.py".toList)]
  here := []

/-- The notes may become anything, such as a null byte: the program and the link to it keep their
results. -/
theorem scan_isolated_notes :
    ∃ s s', scan notesTree ⟨.root, []⟩ {} = .ok s ∧
      scan (notesTree.put ["notes.txt".toList] (.file [0])) ⟨.root, []⟩ {} = .ok s' ∧
      SameBut (shownBelow [] ["notes.txt".toList]) s s' := by
  have hp : notesTree.Proper := ⟨by decide, rfl, rfl⟩
  have hp' : (notesTree.put ["notes.txt".toList] (.file [0])).Proper := ⟨by decide, rfl, rfl⟩
  have hnotes : notesTree.at? ["notes.txt".toList] =
      some (.file (Utf8.encode "none".toList)) := rfl
  have hd := FileTree.differIn_put hnotes [0]
  have hroot : notesTree.find? ⟨.root, []⟩ = .ok (some ([], notesTree.root)) := rfl
  refine (scan_isolated hd hp hp' {} ?_).2 [] _ hroot (by decide)
  intro base top h rel _ target hat node hf
  rw [hroot] at h
  cases h
  have hlinks : FileTree.linksOf notesTree.root = [["main.py".toList]] := by decide
  have hrel := FileTree.mem_linksOf hat
  rw [hlinks, List.nil_append, List.mem_singleton] at hrel
  subst hrel
  cases hf

end DirectoryScan
end EnvAudit
