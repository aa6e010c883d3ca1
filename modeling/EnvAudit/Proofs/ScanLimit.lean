import EnvAudit.Proofs.FileIsolation
import EnvAudit.Proofs.UsageGroups

/-!
# Scans under a limit

A limit on the number of files is applied to the candidates before any of them is read. So a scan
under a limit gives the start of what a scan under a larger limit gives, or under none
(`scan_limited`): the first secrets, the first variables, and of each variable the first places that
read it. Files without a text count for the limit as well.
-/
namespace EnvAudit

/-! ## Usages merged so far -/

namespace EnvKeyUsage

/-- Names that are merged keep their places when more is merged behind. -/
theorem names_prefix_merge (ps qs : List (List EnvKeyUsage)) :
    names (merge ps) <+: names (merge (ps ++ qs)) := by
  have hsplit : merge (ps ++ qs) = mergeInto (merge ps) qs.flatten := by
    rw [merge_eq_mergeInto, merge_eq_mergeInto, List.flatten_append, mergeInto_append]
  rw [hsplit, names_mergeInto]
  exact List.prefix_append _ _

end EnvKeyUsage

namespace DirectoryScan

open EnvKeyUsage

/-! ## Results put together so far -/

/-- Whether a scan gives the start of what another gives: the first secrets, the first variables in
order, and for each variable the first places that read it. -/
structure IsStartOf (s s' : DirectoryScan) : Prop where
  secrets : s.secrets <+: s'.secrets
  names : names s.usages <+: names s'.usages
  locations : ∀ name, locationsOf name s.usages <+: locationsOf name s'.usages

/-- Results of more files come behind those of the first. -/
theorem isStartOf_ofFiles (rs more : List (Option ContentScan)) :
    IsStartOf (ofFiles rs) (ofFiles (rs ++ more)) where
  secrets := by
    rw [secrets_ofFiles, secrets_ofFiles, List.flatMap_append]
    exact List.prefix_append _ _
  names := by
    simp only [ofFiles, List.filterMap_append, List.map_append]
    exact names_prefix_merge _ _
  locations name := by
    rw [locationsOf_ofFiles, locationsOf_ofFiles, List.flatMap_append]
    exact List.prefix_append _ _

theorem isStartOf_ofFiles_map {files files' : List RelPath} (h : files <+: files')
    (result : RelPath → Option ContentScan) :
    IsStartOf (ofFiles (files.map result)) (ofFiles (files'.map result)) := by
  obtain ⟨more, rfl⟩ := h
  rw [List.map_append]
  exact isStartOf_ofFiles _ _

/-! ## Limits -/

/-- The options with a limit on the number of files, or with none. -/
def Options.upTo (options : Options) (limit : Option Nat) : Options :=
  { options with maxFiles := limit.map Int.ofNat }

namespace Options

variable (options : Options) (all : List RelPath)

theorem files_upTo (n : Nat) : (options.upTo (some n)).files all = all.take n := rfl

theorem length_files_upTo (n : Nat) :
    ((options.upTo (some n)).files all).length = min n all.length := by
  rw [files_upTo, List.length_take]

/-- Under a smaller limit the scanned files are the first of those under a larger. -/
theorem files_upTo_prefix {n : Nat} {limit : Option Nat} (h : ∀ m ∈ limit, n ≤ m) :
    (options.upTo (some n)).files all <+: (options.upTo limit).files all := by
  rw [files_upTo]
  cases limit with
  | none => exact List.take_prefix n all
  | some m =>
    rw [files_upTo]
    exact List.take_prefix_take_left (h m rfl)

end Options

/-! ## Scans -/

/-- **A scan under a limit gives the start of a scan under a larger limit.** The two end alike, in
one failure or in results of which the first is the start of the second; and they have results if a
directory is at the root and there is a worker. Under the limit `n` the first `n` candidates are
scanned or skipped, or all if there are fewer. -/
theorem scan_limited {t : FileTree} (ht : t.Proper) (root : PathName) (options : Options) {n : Nat}
    {limit : Option Nat} (h : ∀ m ∈ limit, n ≤ m) :
    EndAlike (fun s s' => s.IsStartOf s' ∧ ∃ all, t.candidates root options.globs = .ok all ∧
          s.filesScanned + s.filesSkipped = min n all.length)
        (scan t root (options.upTo (some n))) (scan t root (options.upTo limit)) ∧
      ∀ loc es, t.find? root = .ok (some (loc, .dir es)) → 0 < options.maxWorkers →
        ∃ s, scan t root (options.upTo (some n)) = .ok s := by
  refine ⟨?_, fun loc es hroot hw => ⟨_, scan_of_dir ht hroot (options.upTo (some n)) hw⟩⟩
  cases hc : checkRoot t root with
  | error e =>
    rw [scan_of_checkRoot_error hc, scan_of_checkRoot_error hc]
    exact .error e
  | ok u =>
    obtain ⟨loc, es, hroot⟩ := checkRoot_ok_iff.mp hc
    rcases Int.lt_or_le 0 options.maxWorkers with hw | hw
    · have hfirst := scan_of_dir ht hroot (options.upTo (some n)) hw
      have hsecond := scan_of_dir ht hroot (options.upTo limit) hw
      rw [hfirst, hsecond]
      refine .ok ⟨isStartOf_ofFiles_map (options.files_upTo_prefix _ h) _, _,
        FileTree.candidates_of_find? hroot options.globs, ?_⟩
      rw [filesScanned_add_filesSkipped, List.length_map]
      exact options.length_files_upTo _ n
    · have hfirst : scan t root (options.upTo (some n)) = .error .noWorkers :=
        scan_of_no_workers hroot hw
      have hsecond : scan t root (options.upTo limit) = .error .noWorkers :=
        scan_of_no_workers hroot hw
      rw [hfirst, hsecond]
      exact .error _

/-- A project of two programs that read the same variable, with a file between them that has no
text. -/
def limitTree : FileTree where
  root := .dir [("a.py".toList, .file (Utf8.encode "os.getenv('HOME')".toList)),
    ("b.txt".toList, .file [255]),
    ("c.py".toList, .file (Utf8.encode "os.getenv('PATH'), os.getenv('HOME')".toList))]
  here := []

/-- A limit of two scans the first program and skips the file without a text; a scan without a limit
starts with the same. -/
theorem scan_limited_two :
    ∃ s s', scan limitTree ⟨.root, []⟩ (({} : Options).upTo (some 2)) = .ok s ∧
      scan limitTree ⟨.root, []⟩ (({} : Options).upTo none) = .ok s' ∧ s.IsStartOf s' ∧
      s.filesScanned + s.filesSkipped = 2 := by
  have hp : limitTree.Proper := ⟨by decide, rfl, rfl⟩
  have hroot : limitTree.find? ⟨.root, []⟩ = .ok (some ([], limitTree.root)) := rfl
  have hlimit : ∀ m ∈ (none : Option Nat), 2 ≤ m := by simp
  obtain ⟨halike, hok⟩ := scan_limited hp ⟨.root, []⟩ {} hlimit
  obtain ⟨s, hs⟩ := hok [] _ hroot (by decide)
  obtain ⟨s', hs', hstart, all, hall, hfiles⟩ := halike.exists_of_ok hs
  have hcandidates : limitTree.candidatesIn [] [] [] limitTree.root =
      [["a.py".toList], ["b.txt".toList], ["c.py".toList]] :=
    limitTree.candidatesIn_of_listed [] [] [] (by decide) (by decide)
  obtain rfl := Except.ok.inj (hall.symm.trans (FileTree.candidates_of_find? hroot []))
  rw [hcandidates] at hfiles
  exact ⟨s, s', hs, hs', hstart, hfiles⟩

end DirectoryScan
end EnvAudit
