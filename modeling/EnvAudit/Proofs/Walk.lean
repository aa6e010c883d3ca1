import EnvAudit.Candidates
import EnvAudit.Proofs.ProperTree

/-!
# What a walk yields

A walk leaves a directory out as soon as its own path is excluded and then never looks below it.
`candidates_eq_kept_in_order` says that this loses nothing and keeps nothing: the walk yields
exactly the files whose own path survives every exclusion, each once, the files of a directory
before those of its subdirectories and by code point otherwise. That fixes the list, so the order
in which the file system lists the entries of a directory does not matter.

The exclusions are closed downwards (`excludesParts_below`), which is why the test of a file on its
own includes the tests of all directories above it.
-/
namespace EnvAudit

/-! ## The order of a walk -/

/-- The order of a walk: component by component, a file of a directory before all that is in the
directories beside it, and otherwise by code point. -/
def RelPath.Before : RelPath → RelPath → Prop
  | [a], [b] => Text.Less a b
  | [_], _ :: _ :: _ => True
  | a :: p :: ps, b :: q :: qs => Text.Less a b ∨ a = b ∧ Before (p :: ps) (q :: qs)
  | _, _ => False

namespace RelPath

theorem before_cons_cons {a b : Text} {p q : RelPath} (hp : p ≠ []) (hq : q ≠ []) :
    Before (a :: p) (b :: q) ↔ Text.Less a b ∨ a = b ∧ Before p q := by
  cases p with
  | nil => exact absurd rfl hp
  | cons x p =>
    cases q with
    | nil => exact absurd rfl hq
    | cons y q => rw [Before]

theorem before_file_dir (a b : Text) {q : RelPath} (hq : q ≠ []) : Before [a] (b :: q) := by
  cases q with
  | nil => exact absurd rfl hq
  | cons y q => trivial

/-- A common way in front does not count. -/
theorem before_append (rel : RelPath) {p q : RelPath} (hp : p ≠ []) (hq : q ≠ []) :
    Before (rel ++ p) (rel ++ q) ↔ Before p q := by
  induction rel with
  | nil => rfl
  | cons a rel ih =>
    rw [List.cons_append, List.cons_append, before_cons_cons (by simp [hp]) (by simp [hq]), ih]
    simp [Text.Less.irrefl]

theorem Before.asymm {p q : RelPath} (h : Before p q) (h' : Before q p) : False := by
  induction p, q using Before.induct with
  | case1 a b => exact Text.Less.asymm h h'
  | case2 a b c rest => exact h'
  | case3 a p ps b q qs ih =>
    simp only [Before] at h h'
    rcases h with h | ⟨rfl, h⟩ <;> rcases h' with h' | ⟨e, h'⟩
    · exact h.asymm h'
    · exact Text.Less.irrefl _ (e ▸ h)
    · exact Text.Less.irrefl _ h'
    · exact ih h h'
  | case4 p q h1 h2 h3 => rw [Before.eq_4 _ _ h1 h2 h3] at h; exact h

theorem Before.irrefl (p : RelPath) : ¬ Before p p := fun h => h.asymm h

instance : Std.Antisymm Before := ⟨fun _ _ h h' => (h.asymm h').elim⟩

instance : Std.Irrefl Before := ⟨Before.irrefl⟩

end RelPath

open RelPath

/-! ## Exclusions are closed downwards -/

namespace Glob

theorem Exclusion.excludes_below {e : Exclusion} {dir below : List Text} (hne : below ≠ [])
    (h : e.excludes dir true = true) : e.excludes (dir ++ below) false = true := by
  simp only [Exclusion.excludes, Bool.not_true, Bool.false_and, Bool.false_or, if_true,
    List.any_eq_true, List.mem_range] at h
  obtain ⟨i, hi, hm⟩ := h
  have hlen : i < (dir ++ below).dropLast.length := by
    have := List.length_pos_iff.mpr hne
    simp only [List.length_dropLast, List.length_append]
    omega
  simp only [Exclusion.excludes, Bool.or_eq_true, List.any_eq_true, List.mem_range]
  refine .inr ⟨i, by simpa using hlen, ?_⟩
  -- the first directories above a file below `dir` are those of `dir` itself
  rw [if_neg (by simp), List.dropLast_append_of_ne_nil hne, List.take_append_of_le_length hi, hm]

/-- What is below an excluded directory is excluded for its own path. -/
theorem excludesParts_below {globs : List Text} {dir below : List Text} (hne : below ≠ [])
    (h : excludesParts globs dir true = true) : excludesParts globs (dir ++ below) false = true := by
  simp only [excludesParts, List.any_eq_true] at h ⊢
  obtain ⟨g, hg, e, he, hx⟩ := h
  exact ⟨g, hg, e, he, e.excludes_below hne hx⟩

/-- A path that is written with slashes is tested part by part. -/
theorem excludesPath_join {globs : List Text} {parts : List Text} (hne : parts ≠ [])
    (h : ∀ p ∈ parts, '/' ∉ p) (isDir : Bool) :
    excludesPath globs (Text.join ['/'] parts) isDir = excludesParts globs parts isDir := by
  rw [excludesPath, Text.splitOn_join hne h]

end Glob

namespace FileTree

open FileNode

/-! ## What is yielded -/

/-- A path below a location leads through real directories to an entry that counts as a file. -/
def HasFile (t : FileTree) (loc : Location) (path : RelPath) : Prop :=
  ∃ dirs name node, path = dirs ++ [name] ∧ t.at? (loc ++ path) = some node ∧
    t.countsAsDir (loc ++ dirs) name node = false

/-- No exclusion holds for a file, judged by its own path alone. -/
structure IsKept (globs : List Text) (path : RelPath) : Prop where
  noSkippedDir : ∀ d ∈ path.dropLast, Glob.isSkippedDir d = false
  nameKept : Glob.isBaselineExcluded (path.getLast?.getD []) = false
  pathKept : Glob.excludesPath globs (Text.join ['/'] path) false = false

theorem countsAsDir_of_isDir (t : FileTree) (loc : Location) (name : Text) {node : FileNode}
    (h : node.isDir = true) : t.countsAsDir loc name node = true := by
  cases node <;> simp_all [isDir, countsAsDir]

theorem survives_of_isDir {t : FileTree} {globs : List Text} {loc : Location} {rel : RelPath}
    {name : Text} {node : FileNode} (h : node.isDir = true) :
    t.survives globs loc rel name node = true ↔
      Glob.isSkippedDir name = false ∧ Glob.excludesParts globs (rel ++ [name]) true = false := by
  simp [survives, countsAsDir_of_isDir t loc name h]

theorem isCandidate_iff {t : FileTree} {globs : List Text} {loc : Location} {rel : RelPath}
    {name : Text} {node : FileNode} :
    t.isCandidate globs loc rel name node = true ↔
      t.countsAsDir loc name node = false ∧ Glob.isBaselineExcluded name = false ∧
        Glob.excludesParts globs (rel ++ [name]) false = false := by
  cases h : t.countsAsDir loc name node <;> simp [isCandidate, survives, h]

/-- What a walk from a directory on has tested when it yields a file: the file itself, and each
directory on the way by its own path. -/
structure Passes (t : FileTree) (globs : List Text) (loc : Location) (rel : RelPath)
    (dirs : List Text) (name : Text) (node : FileNode) : Prop where
  isFile : t.countsAsDir (loc ++ dirs) name node = false
  noSkippedDir : ∀ d ∈ dirs, Glob.isSkippedDir d = false
  aboveKept : ∀ above, above ≠ [] → above <+: dirs →
    Glob.excludesParts globs (rel ++ above) true = false
  nameKept : Glob.isBaselineExcluded name = false
  pathKept : Glob.excludesParts globs (rel ++ (dirs ++ [name])) false = false

/-- The tests on the way into a directory are that of the directory and those from there on. -/
theorem passes_cons {t : FileTree} {globs : List Text} {loc : Location} {rel : RelPath}
    {d : Text} {dirs : List Text} {name : Text} {node : FileNode} :
    t.Passes globs loc rel (d :: dirs) name node ↔
      (Glob.isSkippedDir d = false ∧ Glob.excludesParts globs (rel ++ [d]) true = false) ∧
        t.Passes globs (loc ++ [d]) (rel ++ [d]) dirs name node := by
  constructor
  · rintro ⟨hf, hs, ha, hn, hp⟩
    refine ⟨⟨hs d (by simp), ha [d] (by simp) (by simp)⟩, ?_, ?_, ?_, hn, ?_⟩
    · simpa using hf
    · exact fun x hx => hs x (by simp [hx])
    · intro above _ hpre
      have := ha (d :: above) (by simp) (List.cons_prefix_cons.mpr ⟨rfl, hpre⟩)
      simpa using this
    · simpa using hp
  · rintro ⟨⟨hd, hx⟩, hf, hs, ha, hn, hp⟩
    refine ⟨by simpa using hf, ?_, ?_, hn, by simpa using hp⟩
    · intro x hmem
      rcases List.mem_cons.mp hmem with rfl | hmem
      · exact hd
      · exact hs x hmem
    · intro above hne hpre
      cases above with
      | nil => exact absurd rfl hne
      | cons e above =>
        obtain ⟨rfl, hin⟩ := List.cons_prefix_cons.mp hpre
        by_cases h : above = []
        · subst h
          exact hx
        · have := ha above h hin
          simpa using this

/-- A walk yields what passes every test on the way. -/
theorem mem_candidatesIn {t : FileTree} {globs : List Text} {loc : Location} {rel : RelPath}
    {node : FileNode} (hp : node.isProper = true) (path : RelPath) :
    path ∈ t.candidatesIn globs loc rel node ↔
      ∃ dirs name n, path = rel ++ (dirs ++ [name]) ∧ node.at? (dirs ++ [name]) = some n ∧
        t.Passes globs loc rel dirs name n := by
  induction node using induct_entries generalizing loc rel with
  | leaf node hd =>
    have hno : ∀ dirs name, node.at? (dirs ++ [name]) = none := by
      intro dirs name
      cases dirs <;> cases node <;> simp_all [FileNode.at?, entries, entryAt?, isDir]
    cases node <;> simp_all [candidatesIn, isDir]
  | dir es ih =>
    obtain ⟨hnd, hall⟩ := areProper_iff.mp hp
    rw [mem_candidatesIn_dir]
    constructor
    · rintro (⟨name, n, hm, hc, rfl⟩ | ⟨d, child, hm, hd, hs, hin⟩)
      · obtain ⟨hf, hn, hx⟩ := isCandidate_iff.mp hc
        refine ⟨[], name, n, rfl, ?_, by simpa using hf, by simp, ?_, hn, hx⟩
        · simp [at?_cons, (mem_iff_entryAt? hnd).mp hm, FileNode.at?]
        · intro above hne hpre
          exact absurd (List.prefix_nil.mp hpre) hne
      · obtain ⟨dirs, name, n, rfl, hat, hpass⟩ := (ih _ hm (hall _ hm).2).mp hin
        refine ⟨d :: dirs, name, n, by simp, ?_, passes_cons.mpr ⟨(survives_of_isDir hd).mp hs, hpass⟩⟩
        simpa [at?_cons, (mem_iff_entryAt? hnd).mp hm] using hat
    · rintro ⟨dirs, name, n, rfl, hat, hpass⟩
      cases dirs with
      | nil =>
        rw [List.nil_append, at?_cons] at hat
        obtain ⟨m, hm, hn⟩ := Option.bind_eq_some_iff.mp hat
        cases hn
        have hc := isCandidate_iff.mpr ⟨by simpa using hpass.isFile, hpass.nameKept, hpass.pathKept⟩
        exact .inl ⟨name, n, mem_of_entryAt? hm, hc, rfl⟩
      | cons d dirs =>
        rw [List.cons_append, at?_cons] at hat
        obtain ⟨child, hc, hn⟩ := Option.bind_eq_some_iff.mp hat
        have hm := mem_of_entryAt? hc
        obtain ⟨hs, hpass⟩ := passes_cons.mp hpass
        have hd : child.isDir = true := by
          cases dirs with
          | nil => exact isDir_of_at?_cons hn
          | cons x dirs => exact isDir_of_at?_cons hn
        refine .inr ⟨d, child, hm, hd, (survives_of_isDir hd).mpr hs, ?_⟩
        exact (ih _ hm (hall _ hm).2).mpr ⟨dirs, name, n, by simp, hn, hpass⟩

/-- **No file is lost and none is kept by pruning.** The test of a file by its own path includes
the tests of all directories above it. -/
theorem mem_candidatesIn_iff {t : FileTree} (ht : t.Proper) {globs : List Text} {loc : Location}
    {node : FileNode} (hat : t.at? loc = some node) (path : RelPath) :
    path ∈ t.candidatesIn globs loc [] node ↔ t.HasFile loc path ∧ IsKept globs path := by
  rw [mem_candidatesIn (isProper_at? ht.names hat).1]
  have hjoin : ∀ dirs name n, node.at? (dirs ++ [name]) = some n →
      Glob.excludesPath globs (Text.join ['/'] (dirs ++ [name])) false =
        Glob.excludesParts globs (dirs ++ [name]) false := by
    intro dirs name n hn
    refine Glob.excludesPath_join (by simp) (fun p hp => ?_) false
    have := (isProper_at? (isProper_at? ht.names hat).1 hn).2 p hp
    exact (isEntryName_iff.mp this).2.2.2.1
  constructor
  · rintro ⟨dirs, name, n, rfl, hn, hp⟩
    refine ⟨⟨dirs, name, n, by simp, by simp [t.at?_append, hat, hn], hp.isFile⟩, ?_, ?_, ?_⟩
    · simpa using hp.noSkippedDir
    · simpa using hp.nameKept
    · simpa [hjoin dirs name n hn] using hp.pathKept
  · rintro ⟨⟨dirs, name, n, rfl, hn, hf⟩, hs, hb, hx⟩
    have hn : node.at? (dirs ++ [name]) = some n := by simpa [t.at?_append, hat] using hn
    rw [hjoin dirs name n hn] at hx
    refine ⟨dirs, name, n, by simp, hn, hf, by simpa using hs, ?_, by simpa using hb, hx⟩
    rintro above - ⟨below, rfl⟩
    rw [List.nil_append, Bool.eq_false_iff]
    intro habove
    have hne : below ++ [name] ≠ [] := by simp
    have := Glob.excludesParts_below hne habove
    rw [← List.append_assoc, hx] at this
    cases this

/-! ## In which order -/

theorem byName_perm {α : Type} (es : List (Text × α)) : (byName es).Perm es :=
  List.mergeSort_perm es _

/-- Things with distinct names are put in strict order. -/
theorem byName_pairwise {α : Type} {es : List (Text × α)} (h : (es.map Prod.fst).Nodup) :
    (byName es).Pairwise fun a b => Text.Less a.1 b.1 := by
  have hle : (byName es).Pairwise fun a b => Text.le a.1 b.1 = true := by
    refine List.pairwise_mergeSort ?_ ?_ es
    · exact fun a b c hab hbc => Text.le_trans hab hbc
    · intro a b
      rw [Bool.or_eq_true]
      exact Text.le_total a.1 b.1
  have hne : (byName es).Pairwise fun a b => a.1 ≠ b.1 :=
    List.pairwise_map.mp (((byName_perm es).map Prod.fst).nodup_iff.mpr h)
  refine (hle.and hne).imp fun {a b} hab => ?_
  rcases (Text.le_iff _ _).mp hab.1 with heq | hlt
  · exact absurd heq hab.2
  · exact hlt

/-- Things listed by name stay as they are listed. -/
theorem byName_of_pairwise {α : Type} {es : List (Text × α)}
    (h : es.Pairwise fun a b => Text.le a.1 b.1) : byName es = es :=
  List.mergeSort_of_pairwise h

theorem map_fst_candidatesByDir_sublist (t : FileTree) (globs : List Text) (loc : Location)
    (rel : RelPath) (es : List (Text × FileNode)) :
    ((t.candidatesByDir globs loc rel es).map Prod.fst).Sublist (es.map Prod.fst) := by
  induction es with
  | nil => simp [candidatesByDir]
  | cons e es ih =>
    obtain ⟨name, node⟩ := e
    simp only [candidatesByDir]
    split
    · exact ih.cons_cons name
    · exact ih.cons name

/-- Below a directory the walk is in order. -/
theorem candidatesIn_pairwise {t : FileTree} {globs : List Text} {loc : Location} {rel : RelPath}
    {node : FileNode} (hp : node.isProper = true) :
    (t.candidatesIn globs loc rel node).Pairwise Before := by
  induction node using induct_entries generalizing loc rel with
  | leaf node hd => cases node <;> simp_all [candidatesIn, isDir]
  | dir es ih =>
    obtain ⟨hnd, hall⟩ := areProper_iff.mp hp
    -- what a subdirectory contributes lies below its name
    have hbelow : ∀ d paths, (d, paths) ∈ t.candidatesByDir globs loc rel es →
        ∀ path ∈ paths, ∃ p, p ≠ [] ∧ path = rel ++ d :: p := by
      intro d paths hm path hpath
      obtain ⟨child, hc, -, -, rfl⟩ := (t.mem_candidatesByDir ..).mp hm
      obtain ⟨dirs, name, n, rfl, -, -⟩ := (mem_candidatesIn (hall _ hc).2 path).mp hpath
      exact ⟨dirs ++ [name], by simp, by simp⟩
    rw [candidatesIn, List.pairwise_append]
    refine ⟨?_, ?_, ?_⟩
    · have hfiles := hnd.sublist ((List.filter_sublist
        (p := fun e => t.isCandidate globs loc rel e.1 e.2)).map Prod.fst)
      refine List.pairwise_map.mpr ((byName_pairwise hfiles).imp fun {a b} hab => ?_)
      exact (before_append rel (by simp) (by simp)).mpr hab
    · have hdirs := hnd.sublist (t.map_fst_candidatesByDir_sublist globs loc rel es)
      refine List.pairwise_flatMap.mpr ⟨?_, ?_⟩
      · rintro ⟨d, paths⟩ hm
        obtain ⟨child, hc, -, -, rfl⟩ := (t.mem_candidatesByDir ..).mp ((mem_byName ..).mp hm)
        exact ih _ hc (hall _ hc).2
      · refine (byName_pairwise hdirs).imp_of_mem fun {a b} ha hb hab => ?_
        intro x hx y hy
        obtain ⟨p, hpne, rfl⟩ := hbelow a.1 a.2 ((mem_byName ..).mp ha) x hx
        obtain ⟨q, hqne, rfl⟩ := hbelow b.1 b.2 ((mem_byName ..).mp hb) y hy
        refine (before_append rel (by simp) (by simp)).mpr ?_
        exact (before_cons_cons hpne hqne).mpr (.inl hab)
    · intro x hx y hy
      obtain ⟨e, -, rfl⟩ := List.mem_map.mp hx
      obtain ⟨⟨d, paths⟩, hm, hy⟩ := List.mem_flatMap.mp hy
      obtain ⟨p, hpne, rfl⟩ := hbelow d paths ((mem_byName ..).mp hm) y hy
      exact (before_append rel (by simp) (by simp)).mpr (before_file_dir e.1 d hpne)

/-- No file is yielded twice. -/
theorem nodup_candidatesIn {t : FileTree} {globs : List Text} {loc : Location} {rel : RelPath}
    {node : FileNode} (hp : node.isProper = true) : (t.candidatesIn globs loc rel node).Nodup :=
  (candidatesIn_pairwise hp).imp fun {a b} (h : Before a b) (e : a = b) =>
    Before.irrefl b (e ▸ h)

/-! ## Whatever the listing -/

theorem SameShape.hasFile {t t' : FileTree} (h : SameShape t t') {loc : Location} {path : RelPath}
    (hf : t.HasFile loc path) : t'.HasFile loc path := by
  obtain ⟨dirs, name, node, rfl, hat, hc⟩ := hf
  rcases h.at?_cases (loc ++ (dirs ++ [name])) with ⟨hn, -⟩ | ⟨m, m', hm, hm', hs⟩
  · rw [hn] at hat
    cases hat
  · rw [hm] at hat
    obtain rfl := Option.some.inj hat
    refine ⟨dirs, name, m', rfl, hm', ?_⟩
    have hl := h.leadsToDir_congr (loc ++ dirs) name
    cases m <;> cases m' <;> simp_all [FileNode.shape, countsAsDir]

theorem SameShape.hasFile_iff {t t' : FileTree} (h : SameShape t t') {loc : Location}
    {path : RelPath} : t'.HasFile loc path ↔ t.HasFile loc path := ⟨h.symm.hasFile, h.hasFile⟩

theorem Agree.hasFile_iff {t t' : FileTree} (h : Agree t t') {loc : Location} {path : RelPath} :
    t'.HasFile loc path ↔ t.HasFile loc path := h.sameShape.hasFile_iff

/-- In a directory that is listed by name and holds no other, the walk follows the listing. -/
theorem candidatesIn_of_listed (t : FileTree) (globs : List Text) (loc : Location) (rel : RelPath)
    {es : List (Text × FileNode)} (hd : ∀ e ∈ es, e.2.isDir = false)
    (h : es.Pairwise fun a b => Text.le a.1 b.1) :
    t.candidatesIn globs loc rel (.dir es) =
      (es.filter fun e => t.isCandidate globs loc rel e.1 e.2).map fun e => rel ++ [e.1] := by
  have hdirs : t.candidatesByDir globs loc rel es = [] := by
    refine List.eq_nil_iff_forall_not_mem.mpr fun ⟨name, paths⟩ hmem => ?_
    obtain ⟨node, hnode, hdir, -⟩ := (mem_candidatesByDir t globs loc rel es name paths).mp hmem
    exact absurd hdir (Bool.eq_false_iff.mp (hd _ hnode))
  rw [candidatesIn, filesIn, hdirs, byName_of_pairwise (h.filter _), byName_of_pairwise .nil,
    List.flatMap_nil, List.append_nil]

theorem candidates_of_find? {t : FileTree} {root : PathName} {loc : Location} {node : FileNode}
    (h : t.find? root = .ok (some (loc, node))) (globs : List Text) :
    t.candidates root globs = .ok (t.candidatesIn globs loc [] node) := by
  rw [candidates, h]

/-- **The walk yields exactly the files that no exclusion holds for, in order.** Below a root that
is there, a path is yielded if and only if it leads through real directories to a file that is kept
by its own path; every path comes once and in the order of the walk; and a tree that differs only
in the order of its listings yields the same. -/
theorem candidates_eq_kept_in_order {t : FileTree} (ht : t.Proper) {root : PathName}
    {loc : Location} {node : FileNode} (h : t.find? root = .ok (some (loc, node)))
    (globs : List Text) :
    ∃ paths, t.candidates root globs = .ok paths ∧
      (∀ path, path ∈ paths ↔ t.HasFile loc path ∧ IsKept globs path) ∧
      paths.Nodup ∧ paths.Pairwise Before ∧
      ∀ t' : FileTree, t'.Proper → Agree t t' → t'.candidates root globs = .ok paths := by
  have hat := at?_of_find? h
  have hord : ∀ {t : FileTree} {node : FileNode}, t.Proper → t.at? loc = some node →
      (t.candidatesIn globs loc [] node).Pairwise Before :=
    fun ht hat => candidatesIn_pairwise (isProper_at? ht.names hat).1
  have hnodup : ∀ {paths : List RelPath}, paths.Pairwise Before → paths.Nodup :=
    fun hp => hp.imp fun {a b} (hb : Before a b) (e : a = b) => Before.irrefl b (e ▸ hb)
  refine ⟨_, candidates_of_find? h globs, mem_candidatesIn_iff ht hat, hnodup (hord ht hat),
    hord ht hat, fun t' ht' hag => ?_⟩
  obtain ⟨node', h', -⟩ := hag.find?_congr h
  have hat' := at?_of_find? h'
  rw [candidates_of_find? h']
  have hperm : (t'.candidatesIn globs loc [] node').Perm (t.candidatesIn globs loc [] node) := by
    refine (List.perm_ext_iff_of_nodup (hnodup (hord ht' hat')) (hnodup (hord ht hat))).mpr ?_
    intro path
    rw [mem_candidatesIn_iff ht' hat', mem_candidatesIn_iff ht hat, hag.hasFile_iff]
  refine congrArg Except.ok (hperm.eq_of_pairwise ?_ (hord ht' hat') (hord ht hat))
  exact fun a b _ _ hab hba => (hab.asymm hba).elim

/-- A project directory as one file system lists it. -/
def projectEntries : List (Text × FileNode) :=
  [("src".toList, .dir [("b.py".toList, .file []), ("a.md".toList, .file [])]),
    (".env".toList, .file []), ("link".toList, .link "src".toList),
    ("build".toList, .dir [("out.txt".toList, .file [])]), ("e.py".toList, .link ".env".toList)]

/-- A file system with nothing but a project directory, however that is listed. -/
def projectTree (es : List (Text × FileNode)) : FileTree := { root := .dir es, here := [] }

theorem candidates_project_in_order :
    ∃ paths, (projectTree projectEntries).candidates ⟨.root, []⟩ ["*.\x7bmd,txt\x7d".toList] = .ok paths ∧
      (∀ path, path ∈ paths ↔
        (projectTree projectEntries).HasFile [] path ∧ IsKept ["*.\x7bmd,txt\x7d".toList] path) ∧
      paths.Nodup ∧ paths.Pairwise Before ∧
      (projectTree projectEntries.reverse).candidates ⟨.root, []⟩ ["*.\x7bmd,txt\x7d".toList] = .ok paths := by
  have hp : (projectTree projectEntries).Proper := ⟨by decide, rfl, rfl⟩
  have hp' : (projectTree projectEntries.reverse).Proper := ⟨by decide, rfl, rfl⟩
  have hag : Agree (projectTree projectEntries) (projectTree projectEntries.reverse) :=
    agree_of_perm hp rfl (List.reverse_perm projectEntries).symm
  have hroot : (projectTree projectEntries).find? ⟨.root, []⟩ =
      .ok (some ([], .dir projectEntries)) := rfl
  obtain ⟨paths, h, hm, hnd, hord, hl⟩ :=
    candidates_eq_kept_in_order hp hroot ["*.\x7bmd,txt\x7d".toList]
  exact ⟨paths, h, hm, hnd, hord, hl _ hp' hag⟩

end FileTree
end EnvAudit
