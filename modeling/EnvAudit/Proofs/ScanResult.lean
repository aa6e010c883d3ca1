import EnvAudit.Proofs.Walk
import EnvAudit.RepositoryScan

/-!
# Results of scans

What a scan gives, without the steps on the way to it. Where a directory is at the root and there
is a worker, no candidate keeps a scan of a proper tree from its result (`scan_of_dir`): each gives
a result of its own, or none if it has no text. The same holds of the inventory (`outcome_take`) and
so of the scan of a repository (`outcome_scanAt`).
-/
namespace EnvAudit

/-- Whether two runs end alike: both with results, which are related, or both with one failure. -/
inductive EndAlike {α : Type} (R : α → α → Prop) : Except Failure α → Except Failure α → Prop
  | ok {a b : α} (h : R a b) : EndAlike R (.ok a) (.ok b)
  | error (e : Failure) : EndAlike R (.error e) (.error e)

theorem EndAlike.imp {α : Type} {R S : α → α → Prop} (h : ∀ a b, R a b → S a b)
    {x x' : Except Failure α} (hx : EndAlike R x x') : EndAlike S x x' := by
  cases hx with
  | ok hr => exact .ok (h _ _ hr)
  | error e => exact .error e

theorem EndAlike.exists_of_ok {α : Type} {R : α → α → Prop} {x x' : Except Failure α} {a : α}
    (hx : EndAlike R x x') (h : x = .ok a) : ∃ b, x' = .ok b ∧ R a b := by
  subst h
  cases hx with
  | ok hr => exact ⟨_, rfl, hr⟩

/-- Two chains end alike if they begin with the same and go on alike. -/
theorem EndAlike.bind {α β : Type} {R : β → β → Prop} {x x' : Logged α} {f f' : α → Logged β}
    (hx : x'.outcome = x.outcome)
    (h : ∀ a, x.outcome = .ok a → EndAlike R (f a).outcome (f' a).outcome) :
    EndAlike R (x >>= f).outcome (x' >>= f').outcome := by
  obtain ⟨ws, o⟩ := x
  obtain ⟨ws', o'⟩ := x'
  obtain rfl : o' = o := hx
  cases o' with
  | error e => exact .error e
  | ok a => exact h a rfl

theorem mapM_eq_ok {α β : Type} {f : α → Except Failure β} {g : α → β} {xs : List α}
    (h : ∀ a ∈ xs, f a = .ok (g a)) : xs.mapM f = .ok (xs.map g) := by
  induction xs with
  | nil => rfl
  | cons a xs ih =>
    rw [List.forall_mem_cons] at h
    rw [List.mapM_cons, h.1, ih h.2]
    rfl

namespace FileTree

variable {t : FileTree}

/-! ## Names that can be looked up -/

theorem descend_ne_embeddedNull (followLast : Bool) (loc : Location) (parts : List Text) :
    t.descend followLast loc parts ≠ .problem .embeddedNull := by
  induction parts generalizing loc with
  | nil =>
    rw [descend]
    split <;> simp
  | cons part rest ih =>
    rw [descend]
    split
    · exact ih _
    split
    · exact ih _
    split
    · simp
    split
    · split <;> simp
    · exact ih _
    · split <;> simp
    · split <;> simp

theorem follow_ne_embeddedNull (followLast : Bool) (links : Nat) (loc : Location)
    (parts : List Text) : t.follow followLast links loc parts ≠ .error .embeddedNull := by
  induction links generalizing loc parts with
  | zero =>
    rw [follow]
    split <;> rename_i h
    · simp
    · rintro ⟨⟩
      exact t.descend_ne_embeddedNull _ _ _ h
    · simp
  | succ n ih =>
    rw [follow]
    split <;> rename_i h
    · simp
    · rintro ⟨⟩
      exact t.descend_ne_embeddedNull _ _ _ h
    · exact ih _ _

/-- Whether no part of a path name has a null character. -/
def IsNullFree (p : PathName) : Prop := ∀ part ∈ p.parts, '\x00' ∉ part

theorem isNullFree_iff {p : PathName} :
    IsNullFree p ↔ p.parts.any (·.contains '\x00') = false := by
  simp [IsNullFree]

theorem find?_ne_embeddedNull {p : PathName} (h : IsNullFree p) :
    t.find? p ≠ .error .embeddedNull := by
  rw [find?, lookup, isNullFree_iff.mp h]
  simp only [Bool.false_eq_true, if_false]
  split
  · simp
  · simp
  · rename_i e he
    rintro ⟨⟩
    exact t.follow_ne_embeddedNull _ _ _ _ he

theorem isNullFree_of_find? {p : PathName} {x : Option (Location × FileNode)}
    (h : t.find? p = .ok x) : IsNullFree p := by
  rw [isNullFree_iff]
  cases hany : p.parts.any (·.contains '\x00') with
  | false => rfl
  | true =>
    rw [find?, lookup, if_pos hany] at h
    cases h

/-- A file has a text or none. -/
theorem exists_readText {p : PathName} (h : IsNullFree p) (maxSize : Int) :
    ∃ content, t.readText p maxSize = .ok content := by
  unfold readText
  split
  · rename_i hb
    unfold bytesOf? at hb
    split at hb
    · cases hb
    · cases hb
    · rename_i hf
      cases hb
      exact absurd hf (find?_ne_embeddedNull h)
  · exact ⟨_, rfl⟩
  · exact ⟨_, rfl⟩
  · exact ⟨_, rfl⟩

/-- A candidate can be looked up. -/
theorem isNullFree_candidate (ht : t.Proper) {root : PathName} {loc : Location} {node : FileNode}
    (h : t.find? root = .ok (some (loc, node))) {globs : List Text} {rel : RelPath}
    (hrel : rel ∈ t.candidatesIn globs loc [] node) : IsNullFree (root.descend rel) := by
  obtain ⟨⟨dirs, name, n, -, hat, -⟩, -⟩ := (mem_candidatesIn_iff ht (at?_of_find? h) rel).mp hrel
  have hnames := ht.isEntryName_of_at? hat
  intro part hpart
  rcases List.mem_append.mp hpart with hpart | hpart
  · exact isNullFree_of_find? h part hpart
  · exact (isEntryName_iff.mp (hnames part (List.mem_append_right _ hpart))).2.2.2.2

end FileTree

/-! ## The scan of a directory -/

namespace DirectoryScan

variable {t : FileTree} {root : PathName} {loc : Location} {node : FileNode}

/-- What is shown of a candidate: its path below the root. -/
def shownPath (rel : RelPath) : Text := (PathName.mk .here rel).toText

theorem display_descend (root : PathName) (rel : RelPath) :
    (root.descend rel).display root = shownPath rel := by
  rw [PathName.display, PathName.below?_descend]
  rfl

/-- The result of a candidate, if it has a text. -/
def fileResult (t : FileTree) (root : PathName) (maxSize : Int) (rel : RelPath) :
    Option ContentScan :=
  match t.readText (root.descend rel) maxSize with
  | .ok content => content.map fun c => ContentScan.scan c (shownPath rel)
  | .error _ => none

/-- The candidates that are scanned: all, or the first ones up to a limit. -/
def Options.files (options : Options) (all : List RelPath) : List RelPath :=
  match options.maxFiles with
  | some limit => takeUpTo limit all
  | none => all

theorem takeUpTo_sublist {α : Type} (limit : Int) (xs : List α) :
    (takeUpTo limit xs).Sublist xs := by
  unfold takeUpTo
  split <;> exact List.take_sublist ..

theorem Options.files_sublist (options : Options) (all : List RelPath) :
    (options.files all).Sublist all := by
  unfold Options.files
  split
  · exact takeUpTo_sublist ..
  · exact List.Sublist.refl _

/-- A root passes if a directory is there. -/
theorem checkRoot_ok_iff :
    checkRoot t root = .ok () ↔ ∃ loc es, t.find? root = .ok (some (loc, .dir es)) := by
  simp only [checkRoot, FileTree.exists?, FileTree.isDir?, FileTree.isThere]
  cases hf : t.find? root with
  | error e =>
    cases e <;> simp [FileTree.orFail, FileTree.PathProblem.meansAbsent, Bind.bind, Except.bind,
      throw, throwThe, MonadExceptOf.throw]
  | ok x =>
    cases x with
    | none =>
      simp [FileTree.orFail, Bind.bind, Except.bind, throw, throwThe, MonadExceptOf.throw]
    | some x =>
      obtain ⟨loc, node⟩ := x
      cases node <;> simp [FileTree.orFail, FileNode.isDir, Bind.bind, Except.bind, pure,
        Except.pure, throw, throwThe, MonadExceptOf.throw]

theorem scan_of_checkRoot_error {e : Failure} (h : checkRoot t root = .error e)
    (options : Options) : scan t root options = .error e := by
  rw [scan, h]
  rfl

theorem scan_of_no_workers {es : List (Text × FileNode)}
    (h : t.find? root = .ok (some (loc, .dir es))) {options : Options}
    (hw : options.maxWorkers ≤ 0) : scan t root options = .error .noWorkers := by
  rw [scan, checkRoot_ok_iff.mpr ⟨loc, es, h⟩, FileTree.candidates_of_find? h]
  simp [FileTree.orFail, Bind.bind, Except.bind, hw, throw, throwThe, MonadExceptOf.throw]

/-- **A scan gives the results of the candidates**, put together in their order. -/
theorem scan_of_dir (ht : t.Proper) {es : List (Text × FileNode)}
    (h : t.find? root = .ok (some (loc, .dir es))) (options : Options)
    (hw : 0 < options.maxWorkers) :
    scan t root options = .ok (ofFiles
      ((options.files (t.candidatesIn options.globs loc [] (.dir es))).map
        (fileResult t root options.maxSize))) := by
  have hfile : ∀ rel ∈ options.files (t.candidatesIn options.globs loc [] (.dir es)),
      scanFile t (root.descend rel) (some root) options.maxSize =
        .ok (fileResult t root options.maxSize rel) := by
    intro rel hrel
    have hmem := (options.files_sublist _).subset hrel
    obtain ⟨content, hc⟩ :=
      FileTree.exists_readText (FileTree.isNullFree_candidate ht h hmem) options.maxSize
    rw [scanFile, scanFileAs, hc, fileResult, hc, display_descend]
  rw [scan, checkRoot_ok_iff.mpr ⟨loc, es, h⟩, FileTree.candidates_of_find? h]
  change (do
    if options.maxWorkers ≤ 0 then throw Failure.noWorkers
    let results ← (options.files (t.candidatesIn options.globs loc [] (.dir es))).mapM fun rel =>
      scanFile t (root.descend rel) (some root) options.maxSize
    return ofFiles results) = _
  rw [if_neg (by omega), mapM_eq_ok hfile]
  rfl

end DirectoryScan

/-! ## The inventory -/

namespace Inventory

open DirectoryScan

variable {t : FileTree} {root : PathName} {loc : Location}

/-- The record of an environment file: without an answer it is not committed, and without a text it
sets no keys. -/
def recordAt (t : FileTree) (root : PathName) (tracker : Tracker) (rel : RelPath) :
    EnvFileRecord :=
  EnvFileRecord.make (shownPath rel) ((answer t root tracker (shownPath rel)).toOption.getD false)
    (keysOf ((t.readText (root.descend rel) FileTree.defaultMaxSize).toOption.getD none))

/-- The warning for a path, if there is no answer for it. -/
def warning? (path : Text) : Except Text Bool → Option Text
  | .ok _ => none
  | .error reason =>
    some ("Could not determine git status of ".toList ++ path ++ ": ".toList ++ reason)

theorem commitStatus_eq (path : Text) (reply : Except Text Bool) :
    commitStatus path reply =
      ⟨(warning? path reply).toList, .ok (reply.toOption.getD false)⟩ := by
  cases reply <;> rfl

/-- A file that can be looked up has its record, with a warning if there is no answer for it. -/
theorem recordOf_eq (tracker : Tracker) {rel : RelPath}
    (h : ∃ content, t.readText (root.descend rel) FileTree.defaultMaxSize = .ok content) :
    recordOf t root tracker rel =
      ⟨(warning? (shownPath rel) (answer t root tracker (shownPath rel))).toList,
        .ok (recordAt t root tracker rel)⟩ := by
  obtain ⟨content, hc⟩ := h
  rw [recordOf, display_descend, commitStatus_eq, recordAt, hc]
  exact congrArg (Logged.mk · _) (List.append_nil _)

/-- The inventory has a record of every candidate that is an environment file. -/
theorem outcome_take (ht : t.Proper) {es : List (Text × FileNode)}
    (h : t.find? root = .ok (some (loc, .dir es))) (globs : List Text) (tracker : Tracker) :
    ∃ asked, (take t root globs tracker).outcome =
      .ok ⟨((t.candidatesIn globs loc [] (.dir es)).filter isEnvFile).map
        (recordAt t root tracker), asked⟩ := by
  have hfiles : FileTree.orFail root (findEnvFiles t root globs) =
      .ok ((t.candidatesIn globs loc [] (.dir es)).filter isEnvFile) := by
    rw [findEnvFiles, FileTree.candidates_of_find? h]
    rfl
  have hread : ∀ rel ∈ (t.candidatesIn globs loc [] (.dir es)).filter isEnvFile,
      ∃ content, t.readText (root.descend rel) FileTree.defaultMaxSize = .ok content :=
    fun rel hrel => FileTree.exists_readText
      (FileTree.isNullFree_candidate ht h (List.mem_filter.mp hrel).1) _
  have hrecords := Logged.mapM_eq fun rel hrel => recordOf_eq tracker (hread rel hrel)
  rw [take, hfiles]
  exact ⟨_, Logged.outcome_bind_eq_ok_iff.mpr ⟨_, rfl,
    Logged.outcome_bind_eq_ok_iff.mpr ⟨_, congrArg Logged.outcome hrecords, rfl⟩⟩⟩

end Inventory

/-! ## The scan of a repository -/

namespace RepositoryScan

open DirectoryScan Inventory

variable {t : FileTree} {root : PathName} {loc : Location}

/-- A scan can be opened where a directory is behind the name, and its root is the real path. -/
theorem openRoot_eq_ok_iff {p : PathName} :
    openRoot t p = .ok root ↔ FileTree.IsNullFree p ∧ root = t.realPath p ∧
      ∃ loc es, t.find? root = .ok (some (loc, .dir es)) := by
  have hopen : openRoot t p = t.resolve p >>= fun real =>
      checkRoot t real >>= fun _ => .ok real := rfl
  rw [hopen, FileTree.resolve, FileTree.isNullFree_iff]
  cases p.parts.any (·.contains '\x00') with
  | true => simp [Bind.bind, Except.bind]
  | false =>
    by_cases hdir : ∃ loc es, t.find? (t.realPath p) = .ok (some (loc, .dir es))
    · obtain ⟨loc, es, hf⟩ := hdir
      have hcheck := checkRoot_ok_iff.mpr ⟨loc, es, hf⟩
      simp only [Bool.false_eq_true, if_false, hf, Bind.bind, Except.bind, hcheck]
      constructor
      · rintro ⟨⟩
        exact ⟨trivial, rfl, loc, es, hf⟩
      · rintro ⟨-, rfl, -⟩
        rfl
    · have hcheck : checkRoot t (t.realPath p) ≠ .ok () := fun hc => hdir (checkRoot_ok_iff.mp hc)
      refine iff_of_false (fun h => ?_) fun ⟨_, hroot, hdir'⟩ => hdir (hroot ▸ hdir')
      cases hc : checkRoot t (t.realPath p) with
      | ok _ => exact hcheck hc
      | error e =>
        cases hf : t.find? (t.realPath p) with
        | error problem => cases problem <;> simp [hf, hc, Bind.bind, Except.bind] at h
        | ok _ => simp [hf, hc, Bind.bind, Except.bind] at h

/-- The root of a scan is a directory, if it can be opened. -/
theorem find?_of_openRoot {p : PathName} (h : openRoot t p = .ok root) :
    ∃ loc es, t.find? root = .ok (some (loc, .dir es)) := (openRoot_eq_ok_iff.mp h).2.2

/-- The configuration of a scan: the one that is given, or the one that is loaded. -/
def configOf (t : FileTree) (root : PathName) (config : Option ScanConfig)
    (workers : Option Text) (readers : ScanConfig.Readers) : Logged ScanConfig :=
  match config with
  | some c => pure c
  | none => ScanConfig.load t root workers readers

theorem scan_eq (t : FileTree) (p : PathName) (config : Option ScanConfig) (workers : Option Text)
    (options : Options) :
    scan t p config workers options =
      Logged.ofExcept (openRoot t p) >>= fun root =>
        configOf t root config workers options.readers >>= fun c =>
          scanAt t root c (allGlobs c options.globs) options := by
  cases config <;> rfl

/-- What a scan of a repository is asked of its directory. -/
def directoryOptions (config : ScanConfig) (globs : List Text) (options : Options) :
    DirectoryScan.Options where
  globs := globs
  maxFiles := options.maxFiles.orElse fun _ => config.maxFiles
  maxWorkers := config.maxWorkers
  maxSize := config.maxFileSize

theorem scan_some (t : FileTree) (p : PathName) (config : ScanConfig) (workers : Option Text)
    (options : Options) :
    scan t p (some config) workers options =
      Logged.ofExcept (openRoot t p) >>= fun root =>
        scanAt t root config (allGlobs config options.globs) options := by
  simp only [scan, pure_bind]

theorem scanAt_of_no_workers {es : List (Text × FileNode)}
    (h : t.find? root = .ok (some (loc, .dir es))) {config : ScanConfig}
    (hw : config.maxWorkers ≤ 0) (globs : List Text) (options : Options) :
    (scanAt t root config globs options).outcome = .error .noWorkers := by
  have hscan : DirectoryScan.scan t root (directoryOptions config globs options) =
      .error .noWorkers := scan_of_no_workers h hw
  rw [directoryOptions] at hscan
  rw [scanAt, hscan]
  rfl

/-- **A scan of a repository reports the results of the candidates and their records.** -/
theorem outcome_scanAt (ht : t.Proper) {es : List (Text × FileNode)}
    (h : t.find? root = .ok (some (loc, .dir es))) {config : ScanConfig}
    (hw : 0 < config.maxWorkers) (globs : List Text) (options : Options) :
    ∃ asked, (scanAt t root config globs options).outcome = .ok
      (let all := t.candidatesIn globs loc [] (.dir es)
       let scan := ofFiles (((directoryOptions config globs options).files all).map
         (fileResult t root config.maxFileSize))
       ⟨ScanReport.make scan.secrets scan.usages
          ((all.filter isEnvFile).map (recordAt t root options.tracker))
          scan.filesScanned scan.filesSkipped options.history, asked⟩) := by
  have hscan := scan_of_dir ht h (directoryOptions config globs options) hw
  obtain ⟨asked, htake⟩ := outcome_take ht h globs options.tracker
  rw [directoryOptions] at hscan
  rw [scanAt, hscan]
  exact ⟨asked, Logged.outcome_bind_eq_ok_iff.mpr ⟨_, rfl,
    Logged.outcome_bind_eq_ok_iff.mpr ⟨_, htake, rfl⟩⟩⟩

/-- There is a report if there is a root, a configuration and a worker. -/
theorem exists_scan_eq_ok (ht : t.Proper) {p : PathName} (hopen : openRoot t p = .ok root)
    {config : Option ScanConfig} {workers : Option Text} (options : Options) {c : ScanConfig}
    (hconfig : (configOf t root config workers options.readers).outcome = .ok c)
    (hw : 0 < c.maxWorkers) : ∃ r, (scan t p config workers options).outcome = .ok r := by
  obtain ⟨loc, es, h⟩ := find?_of_openRoot hopen
  obtain ⟨asked, hscan⟩ := outcome_scanAt ht h hw (allGlobs c options.globs) options
  rw [scan_eq, hopen]
  exact ⟨_, Logged.outcome_bind_eq_ok_iff.mpr ⟨root, rfl,
    Logged.outcome_bind_eq_ok_iff.mpr ⟨c, hconfig, hscan⟩⟩⟩

end RepositoryScan
end EnvAudit
