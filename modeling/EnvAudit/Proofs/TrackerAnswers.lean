import EnvAudit.Proofs.CommitStatus
import Mathlib.Data.List.Nodup

/-!
# What an inventory makes of answers

A given tracker is asked about one environment file after another, once about each, by the path that
its record shows. A question without an answer costs a warning and no more: the file still has its
record, as one that is not committed, and so has every other file (`take_given`). So a tracker that
answers differently for one path changes the record of that path and its warning alone.

`recordAsking` and `takeAsking` note each question when it is asked; `run_takeAsking` says that the
inventory gives the same, and that the paths it lists as asked about are those that are noted.
-/
namespace EnvAudit.Inventory

open DirectoryScan

/-! ## Files that are found -/

section

variable {t : FileTree} {root : PathName} {globs : List Text} {files : List RelPath}

/-- Files are looked for below any name that can be looked up. -/
theorem exists_findEnvFiles (h : FileTree.IsNullFree root) (globs : List Text) :
    ∃ files, findEnvFiles t root globs = .ok files := by
  have hne := t.find?_ne_embeddedNull h
  unfold findEnvFiles FileTree.candidates
  split
  · exact ⟨_, rfl⟩
  · exact ⟨_, rfl⟩
  · rename_i hnull
    exact absurd hnull hne
  · exact ⟨_, rfl⟩

/-- Files are found below what is at the root. -/
theorem findEnvFiles_cases (h : findEnvFiles t root globs = .ok files) :
    files = [] ∨ ∃ loc node, t.find? root = .ok (some (loc, node)) ∧
      files = (t.candidatesIn globs loc [] node).filter isEnvFile := by
  cases hf : t.find? root with
  | ok found =>
    cases found with
    | none =>
      rw [findEnvFiles, FileTree.candidates, hf] at h
      exact .inl (Except.ok.inj h).symm
    | some found =>
      rw [findEnvFiles_of_find? hf] at h
      exact .inr ⟨_, _, rfl, (Except.ok.inj h).symm⟩
  | error problem =>
    rw [findEnvFiles, FileTree.candidates, hf] at h
    cases problem <;> cases h <;> exact .inl rfl

/-- What is shown of a path tells it from every other. -/
theorem shownPath_inj {rel rel' : RelPath} (hrel : Git.IsFilePath rel) (hrel' : Git.IsFilePath rel')
    (h : shownPath rel = shownPath rel') : rel = rel' := by
  rw [← Git.splitOn_shownPath hrel, h, Git.splitOn_shownPath hrel']

theorem nodup_map_shownPath (ht : t.Proper) (h : findEnvFiles t root globs = .ok files) :
    (files.map shownPath).Nodup := by
  rcases findEnvFiles_cases h with rfl | ⟨loc, node, hf, rfl⟩
  · exact List.nodup_nil
  · have hat := FileTree.at?_of_find? hf
    have hnodup : (t.candidatesIn globs loc [] node).Nodup :=
      FileTree.nodup_candidatesIn (ht.isProper_of_at? hat)
    refine (hnodup.filter _).map_on fun rel hrel rel' hrel' he => ?_
    exact shownPath_inj (isFilePath_of_candidate ht hf (List.mem_filter.mp hrel).1)
      (isFilePath_of_candidate ht hf (List.mem_filter.mp hrel').1) he

/-- A file that is found has a text or none. -/
theorem exists_readText_of_found (ht : t.Proper) (h : findEnvFiles t root globs = .ok files)
    {rel : RelPath} (hrel : rel ∈ files) :
    ∃ content, t.readText (root.descend rel) FileTree.defaultMaxSize = .ok content := by
  rcases findEnvFiles_cases h with rfl | ⟨loc, node, hf, rfl⟩
  · cases hrel
  · exact FileTree.exists_readText
      (FileTree.isNullFree_candidate ht hf (List.mem_filter.mp hrel).1) _

end

/-! ## Records -/

/-- The warnings for paths, in order. -/
def warningsFor (ask : Text → Except Text Bool) (paths : List Text) : List Text :=
  paths.filterMap fun path => warning? path (ask path)

theorem warningsFor_append (ask : Text → Except Text Bool) (paths paths' : List Text) :
    warningsFor ask (paths ++ paths') = warningsFor ask paths ++ warningsFor ask paths' :=
  List.filterMap_append

theorem warningsFor_cons (ask : Text → Except Text Bool) (path : Text) (paths : List Text) :
    warningsFor ask (path :: paths) = (warning? path (ask path)).toList ++ warningsFor ask paths := by
  rw [warningsFor, List.filterMap_cons]
  cases warning? path (ask path) <;> rfl

theorem warningsFor_congr {ask ask' : Text → Except Text Bool} {paths : List Text}
    (h : ∀ path ∈ paths, ask' path = ask path) : warningsFor ask' paths = warningsFor ask paths :=
  List.filterMap_congr fun path hpath => by rw [h path hpath]

theorem toOption_getD_iff {reply : Except Text Bool} :
    reply.toOption.getD false = true ↔ reply = .ok true := by
  cases reply <;> simp [Except.toOption]

section

variable {t : FileTree} {root : PathName} {globs : List Text} {files : List RelPath}

/-- **Every file that is found has its record,** and a warning if there is no answer. -/
theorem take_eq (ht : t.Proper) (h : findEnvFiles t root globs = .ok files)
    (ask : Text → Except Text Bool) :
    take t root globs (.given ask) =
      ⟨warningsFor ask (files.map shownPath),
        .ok ⟨files.map (recordAt t root (.given ask)), files.map shownPath⟩⟩ := by
  have hrecords := Logged.mapM_eq fun rel hrel =>
    recordOf_eq (.given ask) (exists_readText_of_found ht h hrel)
  have hfiles : Logged.ofExcept (FileTree.orFail root (findEnvFiles t root globs)) =
      ⟨[], .ok files⟩ := by rw [h]; rfl
  have hwarnings : warningsFor ask (files.map shownPath) =
      files.flatMap fun rel => (warning? (shownPath rel) (ask (shownPath rel))).toList := by
    rw [warningsFor, List.filterMap_map, List.filterMap_eq_flatMap_toList]
    rfl
  have hasked : (files.map (recordAt t root (.given ask))).map (·.path) = files.map shownPath :=
    List.map_map
  rw [take, hfiles, Logged.bind_ok, hrecords, Logged.bind_ok, hwarnings, ← hasked]
  exact congrArg (Logged.mk · _) (List.append_nil _)

end

/-! ## Questions as they are asked -/

/-- An operation that notes every path that it asks about. -/
abbrev Asking := StateT (List Text) Logged

/-- Asks a tracker about a path, which is noted. -/
def consult (ask : Text → Except Text Bool) (path : Text) : Asking (Except Text Bool) := do
  modify (· ++ [path])
  return ask path

/-- The record of one environment file, with the question that is asked for it noted. -/
def recordAsking (t : FileTree) (root : PathName) (ask : Text → Except Text Bool) (rel : RelPath) :
    Asking EnvFileRecord := do
  let file := root.descend rel
  let path := file.display root
  let reply ← consult ask path
  let committed ← commitStatus path reply
  let content ← Logged.ofExcept (t.readText file FileTree.defaultMaxSize)
  return EnvFileRecord.make path committed (keysOf content)

/-- The records of the environment files below a root, with the questions noted. -/
def takeAsking (t : FileTree) (root : PathName) (globs : List Text)
    (ask : Text → Except Text Bool) : Asking (List EnvFileRecord) := do
  let files ← Logged.ofExcept (FileTree.orFail root (findEnvFiles t root globs))
  files.mapM (recordAsking t root ask)

section

variable (t : FileTree) (root : PathName) (ask : Text → Except Text Bool)

theorem run_consult (path : Text) (noted : List Text) :
    (consult ask path).run noted = pure (ask path, noted ++ [path]) := rfl

/-- For a record one question is asked, about the path that the record shows. -/
theorem run_recordAsking (rel : RelPath) (noted : List Text) :
    (recordAsking t root ask rel).run noted =
      (fun r => (r, noted ++ [r.path])) <$> recordOf t root (.given ask) rel := by
  simp only [recordAsking, recordOf, StateT.run_bind, run_consult, pure_bind, bind_assoc,
    StateT.run_monadLift, monadLift_self, StateT.run_pure, map_bind, map_pure]
  rfl

theorem run_mapM_recordAsking (files : List RelPath) (noted : List Text) :
    (files.mapM (recordAsking t root ask)).run noted =
      (fun rs => (rs, noted ++ rs.map (·.path))) <$> files.mapM (recordOf t root (.given ask)) := by
  induction files generalizing noted with
  | nil => simp [-Logged.pure_eq]
  | cons rel files ih => simp [-Logged.pure_eq, run_recordAsking, ih]

/-- **The paths that an inventory lists as asked about are those of the questions,** in order. -/
theorem run_takeAsking (globs : List Text) :
    (takeAsking t root globs ask).run [] =
      (fun i => (i.records, i.asked)) <$> take t root globs (.given ask) := by
  simp [-Logged.pure_eq, takeAsking, take, run_mapM_recordAsking]

end

/-! ## Another answer for one path -/

/-- Whether two inventories are the same but for what comes of the answers for one path: the commit
status in its record, and its warning. -/
inductive SameButFor (path : Text) : Logged Inventory → Logged Inventory → Prop
  /-- There is no record of the path. -/
  | same (i : Logged Inventory) : SameButFor path i i
  | one (before after : List EnvFileRecord) (early late asked : List Text) (keys : List Text)
      (reply reply' : Except Text Bool) :
      SameButFor path
        ⟨early ++ (warning? path reply).toList ++ late,
          .ok ⟨before ++ .make path (reply.toOption.getD false) keys :: after, asked⟩⟩
        ⟨early ++ (warning? path reply').toList ++ late,
          .ok ⟨before ++ .make path (reply'.toOption.getD false) keys :: after, asked⟩⟩

section

variable {t : FileTree} {root : PathName} {globs : List Text} {files : List RelPath}

theorem map_recordAt_congr {ask ask' : Text → Except Text Bool} {files : List RelPath}
    (h : ∀ path ∈ files.map shownPath, ask' path = ask path) :
    files.map (recordAt t root (.given ask')) = files.map (recordAt t root (.given ask)) := by
  refine List.map_congr_left fun rel hrel => ?_
  rw [recordAt, recordAt, answer, answer, h _ (List.mem_map_of_mem hrel)]

/-- **What a tracker does for one path does not count for the others.** -/
theorem take_sameButFor (ht : t.Proper) (h : findEnvFiles t root globs = .ok files) {path : Text}
    {ask ask' : Text → Except Text Bool} (hask : ∀ p, p ≠ path → ask' p = ask p) :
    SameButFor path (take t root globs (.given ask)) (take t root globs (.given ask')) := by
  have hothers : ∀ {paths : List Text}, path ∉ paths → ∀ p ∈ paths, ask' p = ask p :=
    fun hnot p hp => hask p fun he => hnot (he ▸ hp)
  rw [take_eq ht h, take_eq ht h]
  by_cases hin : path ∈ files.map shownPath
  · -- the paths are all different, so the other ones are not the one that is answered differently
    obtain ⟨rel, hrel, rfl⟩ := List.mem_map.mp hin
    obtain ⟨before, after, rfl⟩ := List.append_of_mem hrel
    have hnodup := nodup_map_shownPath ht h
    rw [List.map_append, List.map_cons, List.nodup_middle, List.nodup_cons, List.mem_append,
      not_or] at hnodup
    obtain ⟨⟨hbefore, hafter⟩, -⟩ := hnodup
    simp only [List.map_append, List.map_cons, warningsFor_append, warningsFor_cons,
      warningsFor_congr (hothers hbefore), warningsFor_congr (hothers hafter),
      map_recordAt_congr (hothers hbefore), map_recordAt_congr (hothers hafter),
      ← List.append_assoc]
    exact .one _ _ _ _ _ _ _ _
  · rw [warningsFor_congr (hothers hin), map_recordAt_congr (hothers hin)]
    exact .same _

/-- What a record says if a tracker is asked for its file. -/
structure RecordsAnswer (ask : Text → Except Text Bool) (rel : RelPath) (r : EnvFileRecord) :
    Prop where
  path_eq : r.path = shownPath rel
  isCommitted_iff : r.isCommitted = true ↔ ask (shownPath rel) = .ok true
  severity_iff : r.severity = .high ↔ r.isCommitted = true

theorem recordsAnswer_recordAt (ask : Text → Except Text Bool) (rel : RelPath) :
    RecordsAnswer ask rel (recordAt t root (.given ask) rel) := by
  refine ⟨rfl, toOption_getD_iff, ?_⟩
  simp only [recordAt, EnvFileRecord.make]
  split <;> simp_all

/-- **An inventory has a record of every file, whatever its tracker does.** Below a name that can be
looked up the files are found, all with different paths. For every tracker the inventory has one
record of each of them, in order, which is committed and of high severity exactly if the tracker says
so; there is one warning for each path without an answer; and the tracker is asked about each path
once, in order. Two trackers that differ for one path only give inventories that are the same but for
the record of that path and its warning. -/
theorem take_given (ht : t.Proper) (hroot : FileTree.IsNullFree root) (globs : List Text) :
    ∃ files, findEnvFiles t root globs = .ok files ∧ (files.map shownPath).Nodup ∧
      ∀ ask : Text → Except Text Bool,
        (∃ records,
          take t root globs (.given ask) =
            ⟨warningsFor ask (files.map shownPath), .ok ⟨records, files.map shownPath⟩⟩ ∧
          (takeAsking t root globs ask).run [] =
            ⟨warningsFor ask (files.map shownPath), .ok (records, files.map shownPath)⟩ ∧
          List.Forall₂ (RecordsAnswer ask) files records) ∧
        ∀ (path : Text) (ask' : Text → Except Text Bool), (∀ p, p ≠ path → ask' p = ask p) →
          SameButFor path (take t root globs (.given ask)) (take t root globs (.given ask')) := by
  obtain ⟨files, hfiles⟩ := exists_findEnvFiles (t := t) hroot globs
  refine ⟨files, hfiles, nodup_map_shownPath ht hfiles, fun ask => ⟨?_, fun path ask' hask =>
    take_sameButFor ht hfiles hask⟩⟩
  have htake := take_eq ht hfiles ask
  refine ⟨files.map (recordAt t root (.given ask)), htake, ?_, ?_⟩
  · rw [run_takeAsking, htake]
    exact congrArg (Logged.mk · _) (List.append_nil _)
  · rw [List.forall₂_map_right_iff, List.forall₂_same]
    exact fun rel _ => recordsAnswer_recordAt ask rel

end

/-- A project with three environment files: one of the usual kind, one without a text, and one that
is a pipe. -/
def threeEnvTree : FileTree where
  root := .dir [(".env".toList, .file (Utf8.encode "A=1".toList)),
    (".env.old".toList, .file [255]), (".env.pipe".toList, .pipe)]
  here := []

/-- A tracker that knows one file and has no answer for another. -/
def halfTracker (path : Text) : Except Text Bool :=
  if path = ".env.old".toList then .error "no answer".toList else .ok (path == ".env".toList)

/-- The tracker is asked about all three files, also behind the one that it has no answer for. -/
theorem take_given_threeEnv :
    ∃ records, take threeEnvTree ⟨.root, []⟩ [] (.given halfTracker) =
        ⟨["Could not determine git status of .env.old: no answer".toList],
          .ok ⟨records, [".env".toList, ".env.old".toList, ".env.pipe".toList]⟩⟩ ∧
      records.map (·.isCommitted) = [true, false, false] ∧
      SameButFor ".env.old".toList (take threeEnvTree ⟨.root, []⟩ [] (.given halfTracker))
        (take threeEnvTree ⟨.root, []⟩ [] (.given fun path => .ok (path == ".env".toList))) := by
  have hp : threeEnvTree.Proper := ⟨by decide, rfl, rfl⟩
  have hroot : FileTree.IsNullFree ⟨.root, []⟩ := by simp [FileTree.IsNullFree]
  have hcandidates : threeEnvTree.candidatesIn [] [] [] threeEnvTree.root =
      [[".env".toList], [".env.old".toList], [".env.pipe".toList]] :=
    threeEnvTree.candidatesIn_of_listed [] [] [] (by decide) (by decide)
  have hfound : findEnvFiles threeEnvTree ⟨.root, []⟩ [] =
      .ok [[".env".toList], [".env.old".toList], [".env.pipe".toList]] := by
    have hat : threeEnvTree.find? ⟨.root, []⟩ = .ok (some ([], threeEnvTree.root)) := rfl
    rw [findEnvFiles_of_find? hat, hcandidates]
    rfl
  obtain ⟨files, hfiles, -, hall⟩ := take_given hp hroot []
  obtain rfl := Except.ok.inj (hfiles.symm.trans hfound)
  obtain ⟨⟨records, htake, -, hrecords⟩, hother⟩ := hall halfTracker
  refine ⟨records, htake, ?_, hother _ _ fun p hne => ?_⟩
  · obtain _ | ⟨hfirst, _ | ⟨hsecond, _ | ⟨hthird, ⟨⟩⟩⟩⟩ := hrecords
    have hyes := hfirst.isCommitted_iff.mpr (by decide)
    have hnone := mt hsecond.isCommitted_iff.mp (by decide)
    have hno := mt hthird.isCommitted_iff.mp (by decide)
    simp [hyes, hnone, hno]
  · rw [halfTracker, if_neg hne]

end EnvAudit.Inventory
