import EnvAudit.Proofs.PathQuestions
import Mathlib.Data.List.Forall2

/-!
# The commit status of environment files

Version control is asked for the path of a file and takes it as a pattern. So a file is marked as
committed exactly if a name in the index fits its path (`take_isCommitted_iff`). A committed file is
not missed, unless its path starts with a colon. Where the path has no wildcards either, the file is
marked for its own name and for names below it; else it may be marked for the sake of another
(`take_not_exact`). Nothing is assumed of version control but what is documented (`Program.Lists`).
-/
namespace EnvAudit

/-! ## Answers for the path of a file -/

namespace Git.Program.Lists

open DirectoryScan

variable {git : Program} {root : PathName} {dir rel : RelPath} {index : List Text}
  {fits : RelPath → Text → Prop} {shown : Text → Text}

theorem isVisible_shown (hl : git.Lists root dir index fits shown) (hrel : rel ≠ [])
    (hv : IsVisible (Text.join ['/'] rel)) (rest : Text) :
    IsVisible (shown (nameIn dir rel ++ rest)) := by
  obtain ⟨c, hc, hb⟩ := hv
  rw [nameIn_eq hrel, List.append_assoc]
  exact hl.visible _ ⟨c, List.mem_append_left _ hc, hb⟩

theorem isVisible_own (hl : git.Lists root dir index fits shown) (hrel : rel ≠ [])
    (hv : IsVisible (Text.join ['/'] rel)) : IsVisible (shown (nameIn dir rel)) := by
  have hshown := hl.isVisible_shown hrel hv []
  rwa [List.append_nil] at hshown

/-- The answer for a path is a yes exactly if a name fits that is not blank. -/
theorem isYes_iff (hl : git.Lists root dir index fits shown) (hrel : IsFilePath rel)
    (hv : IsVisible (Text.join ['/'] rel)) :
    (git.listing root (shownPath rel)).isYes = true ↔
      ∃ name ∈ index, fits rel name ∧ IsVisible (shown name) := by
  obtain ⟨names, hprints, hnames, hall⟩ := hl.listing rel hrel
  rw [hprints.isYes_iff]
  constructor
  · rintro ⟨name, hname, hshown⟩
    exact ⟨name, (hnames name hname).1, (hnames name hname).2, hshown⟩
  · rintro ⟨name, hname, hfits, hshown⟩
    rcases hall name hname hfits with hname | hown
    · exact ⟨name, hname, hshown⟩
    · exact ⟨_, hown, hl.isVisible_own hrel.1 hv⟩

/-- For a path without magic and wildcards, the names that count are its own and those below it. -/
theorem isYes_iff_of_isPlain (hl : git.Lists root dir index fits shown) (hrel : IsFilePath rel)
    (hv : IsVisible (Text.join ['/'] rel)) (hmagic : ¬ HasMagic rel) (hplain : IsPlain rel) :
    (git.listing root (shownPath rel)).isYes = true ↔
      ∃ name ∈ index, name = nameIn dir rel ∨ (nameIn dir rel ++ ['/']) <+: name := by
  rw [hl.isYes_iff hrel hv]
  constructor
  · rintro ⟨name, hname, hfits, -⟩
    exact ⟨name, hname, hl.plain rel name hrel hmagic hplain hfits⟩
  · rintro ⟨name, hname, rfl | ⟨rest, rfl⟩⟩
    · exact ⟨_, hname, hl.own rel hrel hmagic, hl.isVisible_own hrel.1 hv⟩
    · rw [List.append_assoc] at hname
      exact ⟨_, hname, hl.below rel rest hrel hmagic, hl.isVisible_shown hrel.1 hv _⟩

end Git.Program.Lists

/-! ## The marks of an inventory -/

namespace Inventory

open DirectoryScan Git

variable {t : FileTree} {root : PathName} {loc : Location}

theorem answer_eq_answerOf {tracker : Tracker} {git : Program} (h : tracker.program? t = some git)
    (path : Text) : answer t root tracker path = answerOf git root path := by
  cases tracker with
  | given ask => cases h
  | repository installed =>
    cases h
    rfl
  | program git' =>
    cases h
    rfl

theorem answerOf_eq (git : Program) (hroot : FileTree.IsNullFree root) {path : Text}
    (hpath : '\x00' ∉ path) :
    answerOf git root path = .ok (git.inRepository root && (git.listing root path).isYes) := by
  have hroot := FileTree.isNullFree_iff.mp hroot
  have hpath : path.contains '\x00' = false := by simpa using hpath
  simp only [answerOf, Program.isRepository, Program.isTracked, hroot, hpath, Bool.or_self,
    Bool.false_eq_true, if_false]
  cases git.inRepository root <;> rfl

/-- A candidate has the path of a file. -/
theorem isFilePath_of_candidate (ht : t.Proper) {node : FileNode}
    (h : t.find? root = .ok (some (loc, node))) {globs : List Text} {rel : RelPath}
    (hrel : rel ∈ t.candidatesIn globs loc [] node) : IsFilePath rel := by
  obtain ⟨⟨dirs, name, n, rfl, hat, -⟩, -⟩ :=
    (FileTree.mem_candidatesIn_iff ht (FileTree.at?_of_find? h) rel).mp hrel
  exact ⟨by simp, fun part hp => ht.isEntryName_of_at? hat part (List.mem_append_right _ hp)⟩

theorem findEnvFiles_of_find? {node : FileNode} (h : t.find? root = .ok (some (loc, node)))
    (globs : List Text) :
    findEnvFiles t root globs = .ok ((t.candidatesIn globs loc [] node).filter isEnvFile) := by
  rw [findEnvFiles, FileTree.candidates_of_find? h]
  rfl

theorem null_not_mem_shownPath {rel : RelPath} (h : ∀ part ∈ rel, isEntryName part = true) :
    '\x00' ∉ shownPath rel := by
  intro hm
  cases rel with
  | nil => exact absurd hm (by decide)
  | cons part rel =>
    have hjoin : '\x00' ∈ Text.join ['/'] (part :: rel) := hm
    rcases Text.mem_join hjoin with hc | ⟨p, hp, hc⟩
    · cases hc
    · exact (isEntryName_iff.mp (h p hp)).2.2.2.2 hc

/-- The path of an environment file is not blank. -/
theorem isVisible_of_isEnvFile {rel : RelPath} (h : isEnvFile rel = true) :
    IsVisible (Text.join ['/'] rel) := by
  rw [isEnvFile, List.isPrefixOf_iff_prefix] at h
  cases hlast : rel.getLast? with
  | none =>
    rw [hlast] at h
    exact absurd h (by decide)
  | some name =>
    rw [hlast] at h
    exact ⟨'.', Text.mem_join_of_mem (List.mem_of_getLast? hlast) (h.subset (by decide)), by decide⟩

/-- **A file is marked as committed exactly if a name in the index fits its path.** So it is marked if
its own name is in the index and its path does not start with a colon. If the path has no wildcards
either, it is marked for its own name and for names below it, and for no other.
-/
theorem take_isCommitted_iff (ht : t.Proper) {es : List (Text × FileNode)}
    (h : t.find? root = .ok (some (loc, .dir es))) {tracker : Tracker} {git : Program}
    (hgit : tracker.program? t = some git) {dir : RelPath} {index : List Text}
    {fits : RelPath → Text → Prop} {shown : Text → Text}
    (hl : git.Lists root dir index fits shown) (globs : List Text) :
    ∃ files inventory, findEnvFiles t root globs = .ok files ∧
      (take t root globs tracker).outcome = .ok inventory ∧
      List.Forall₂ (fun rel record => record.path = shownPath rel ∧
        (record.isCommitted = true ↔ ∃ name ∈ index, fits rel name ∧ IsVisible (shown name)) ∧
        (¬ HasMagic rel → nameIn dir rel ∈ index → record.isCommitted = true) ∧
        (¬ HasMagic rel → IsPlain rel → (record.isCommitted = true ↔
          ∃ name ∈ index, name = nameIn dir rel ∨ (nameIn dir rel ++ ['/']) <+: name)))
        files inventory.records := by
  obtain ⟨asked, htake⟩ := outcome_take ht h globs tracker
  refine ⟨_, _, findEnvFiles_of_find? h globs, htake, ?_⟩
  rw [List.forall₂_map_right_iff, List.forall₂_same]
  intro rel hrel
  obtain ⟨hcandidate, henv⟩ := List.mem_filter.mp hrel
  have hpath := isFilePath_of_candidate ht h hcandidate
  have hv := isVisible_of_isEnvFile henv
  have hmark : (recordAt t root tracker rel).isCommitted =
      (git.listing root (shownPath rel)).isYes := by
    rw [recordAt, answer_eq_answerOf hgit, answerOf_eq git (FileTree.isNullFree_of_find? h)
      (null_not_mem_shownPath hpath.2), hl.inside, Bool.true_and]
    rfl
  rw [hmark]
  refine ⟨rfl, hl.isYes_iff hpath hv, fun hmagic hown => ?_, hl.isYes_iff_of_isPlain hpath hv⟩
  exact (hl.isYes_iff hpath hv).mpr ⟨_, hown, hl.own rel hpath hmagic, hl.isVisible_own hpath.1 hv⟩

/-- A repository with one file, which is kept elsewhere. -/
def workRepository : Repository := { top := [], index := [".env.local".toList], linked := true }

/-- The work tree of that repository. One file of three is committed, and the name of
another is a pattern that it matches. -/
def workTree : FileTree where
  root := .dir [(".env".toList, .file []), (".env*".toList, .file []),
    (".env.local".toList, .file []), (".git".toList, .file (Utf8.encode "gitdir: /r".toList))]
  here := []
  repositories := [workRepository]

/-- The committed file is marked, and so is the one whose name it matches. -/
theorem take_isCommitted_iff_workTree :
    ∃ inventory, (take workTree ⟨.root, []⟩ [] (.repository true)).outcome = .ok inventory ∧
      inventory.records.map (·.path) =
        [".env".toList, ".env*".toList, ".env.local".toList] ∧
      inventory.records.map (·.isCommitted) = [false, true, true] := by
  have hp : workTree.Proper := ⟨by decide, rfl, rfl⟩
  have hroot : workTree.find? ⟨.root, []⟩ = .ok (some ([], workTree.root)) := rfl
  have hl : (program workTree true).Lists ⟨.root, []⟩ [] [".env.local".toList]
      (BringsUp workTree workRepository []) (shownName []) :=
    program_lists (r := workRepository) hp rfl
  have hgit : (Tracker.repository true).program? workTree = some (program workTree true) := rfl
  have hcandidates : workTree.candidatesIn [] [] [] workTree.root =
      [[".env".toList], [".env*".toList], [".env.local".toList], [".git".toList]] :=
    workTree.candidatesIn_of_listed [] [] [] (by decide) (by decide)
  obtain ⟨files, ⟨records, asked⟩, hfiles, htake, hmarks⟩ := take_isCommitted_iff hp hroot hgit hl []
  have hfound := (findEnvFiles_of_find? hroot []).symm.trans hfiles
  rw [hcandidates] at hfound
  obtain rfl := Except.ok.inj hfound
  refine ⟨_, htake, ?_⟩
  obtain _ | ⟨⟨hpath₁, -, -, hplain⟩, _ | ⟨⟨hpath₂, hfits, -⟩, _ | ⟨⟨hpath₃, -, hown, -⟩, ⟨⟩⟩⟩⟩ :=
    hmarks
  have hno := mt (hplain (by decide) (by decide)).mp (by decide)
  have hyes := hfits.mpr ⟨_, List.mem_cons_self, ⟨_, rfl, rfl⟩, by decide⟩
  have hmine := hown (by decide) (by decide)
  constructor
  · simp only [List.map_cons, List.map_nil, hpath₁, hpath₂, hpath₃]
    rfl
  · simp [hno, hyes, hmine]

/-- Whether every file is marked exactly if its own name is in the index. -/
def MarksExactly (t : FileTree) (root : PathName) (globs : List Text) : Prop :=
  ∀ r files inventory, repositoryOf? t (workingDir t root) = some r →
    findEnvFiles t root globs = .ok files →
    (take t root globs (.repository true)).outcome = .ok inventory →
    List.Forall₂ (fun rel record => record.isCommitted = true ↔
      nameIn (baseOf r (workingDir t root)) rel ∈ r.index) files inventory.records

theorem MarksExactly.recordAt_iff {globs : List Text} (hexact : MarksExactly t root globs)
    (ht : t.Proper) {es : List (Text × FileNode)} (h : t.find? root = .ok (some (loc, .dir es)))
    {r : Repository} (hr : repositoryOf? t (workingDir t root) = some r) {rel : RelPath}
    (hfile : t.HasFile loc rel) (hkept : FileTree.IsKept globs rel) (henv : isEnvFile rel = true) :
    (recordAt t root (.repository true) rel).isCommitted = true ↔
      nameIn (baseOf r (workingDir t root)) rel ∈ r.index := by
  obtain ⟨asked, htake⟩ := outcome_take ht h globs (.repository true)
  have hmarks := hexact r _ _ hr (findEnvFiles_of_find? h globs) htake
  rw [List.forall₂_map_right_iff, List.forall₂_same] at hmarks
  refine hmarks rel (List.mem_filter.mpr ⟨?_, henv⟩)
  exact (FileTree.mem_candidatesIn_iff ht (FileTree.at?_of_find? h) rel).mpr ⟨hfile, hkept⟩

/-- A project with a file whose name is a pattern, beside a file that is committed. -/
def patternTree : FileTree where
  root := .dir [(".git".toList, .dir []), (".env*".toList, .file (Utf8.encode "A=1".toList)),
    (".env.local".toList, .file (Utf8.encode "B=1".toList))]
  here := []
  repositories := [{ top := [], index := [".env.local".toList] }]

/-- A project with a file in place of a directory of which a file is committed. -/
def replacedTree : FileTree where
  root := .dir [(".git".toList, .dir []), (".env".toList, .file (Utf8.encode "A=1".toList))]
  here := []
  repositories := [{ top := [], index := [".env/local".toList] }]

/-- A project with a committed file below a directory whose name is a colon. -/
def colonTree : FileTree where
  root := .dir [(".git".toList, .dir []),
    (":".toList, .dir [(".env".toList, .file (Utf8.encode "A=1".toList))])]
  here := []
  repositories := [{ top := [], index := [":/.env".toList] }]

/-- A file may be marked for the sake of another that its name matches, or of one in the directory
that it replaced; and a committed file whose path starts with a colon may be missed. -/
theorem take_not_exact :
    ¬ MarksExactly patternTree ⟨.root, []⟩ [] ∧ ¬ MarksExactly replacedTree ⟨.root, []⟩ [] ∧
      ¬ MarksExactly colonTree ⟨.root, []⟩ [] := by
  refine ⟨fun h => ?_, fun h => ?_, fun h => ?_⟩
  · have hp : patternTree.Proper := ⟨by decide, rfl, rfl⟩
    have hfile : patternTree.HasFile [] [".env*".toList] := ⟨[], _, _, rfl, rfl, rfl⟩
    have hmark := h.recordAt_iff hp rfl rfl hfile ⟨by decide, by decide, by decide⟩ (by decide)
    revert hmark
    decide +kernel
  · have hp : replacedTree.Proper := ⟨by decide, rfl, rfl⟩
    have hfile : replacedTree.HasFile [] [".env".toList] := ⟨[], _, _, rfl, rfl, rfl⟩
    have hmark := h.recordAt_iff hp rfl rfl hfile ⟨by decide, by decide, by decide⟩ (by decide)
    revert hmark
    decide +kernel
  · have hp : colonTree.Proper := ⟨by decide, rfl, rfl⟩
    have hfile : colonTree.HasFile [] [":".toList, ".env".toList] :=
      ⟨[":".toList], _, _, rfl, rfl, rfl⟩
    have hmark := h.recordAt_iff hp rfl rfl hfile ⟨by decide, by decide, by decide⟩ (by decide)
    revert hmark
    decide +kernel

end Inventory
end EnvAudit
