import EnvAudit.Inventory
import EnvAudit.Proofs.OneChange
import Mathlib.Data.List.Nodup

/-!
# Trees with the same links

A real path depends on the links of a tree alone: if the same links are at the same locations, there
are as many of them, and a path has the same real path (`SameLinks.realPath_congr`). What version
control answers depends on no more than that, beside its own directories and the directory of the
question (`Git.isInIndex_congr`, `Inventory.answer_congr`).
-/
namespace EnvAudit

namespace FileTree

open FileNode

/-! ## The locations of links -/

/-- A location in the entries of a directory is one behind the name of an entry. -/
theorem exists_of_mem_linksIn {loc : Location} {es : List (Text × FileNode)}
    (h : loc ∈ linksIn es) : ∃ e ∈ es, ∃ rest ∈ linksOf e.2, loc = e.1 :: rest := by
  induction es with
  | nil => simp [linksIn] at h
  | cons e es ih =>
    rw [linksIn, List.mem_append, List.mem_map] at h
    rcases h with ⟨rest, hrest, rfl⟩ | h
    · exact ⟨e, List.mem_cons_self, rest, hrest, rfl⟩
    · obtain ⟨e', he, rest, hrest, rfl⟩ := ih h
      exact ⟨e', List.mem_cons_of_mem _ he, rest, hrest, rfl⟩

/-- A location is one of a link exactly if a link is there. -/
theorem mem_linksOf_iff {node : FileNode} (hp : node.isProper = true) {loc : Location} :
    loc ∈ linksOf node ↔ ∃ target, node.at? loc = some (.link target) := by
  refine ⟨fun h => ?_, fun ⟨target, h⟩ => mem_linksOf h⟩
  induction node using induct_entries generalizing loc with
  | leaf node hn =>
    cases node with
    | link target =>
      obtain rfl := List.mem_singleton.mp h
      exact ⟨target, rfl⟩
    | dir es => simp [isDir] at hn
    | file _ | pipe => simp [linksOf] at h
  | dir es ih =>
    obtain ⟨hnd, hall⟩ := areProper_iff.mp hp
    obtain ⟨e, he, rest, hrest, rfl⟩ := exists_of_mem_linksIn h
    obtain ⟨target, hat⟩ := ih e he (hall e he).2 hrest
    have hentry : entryAt? e.1 es = some e.2 := (mem_iff_entryAt? hnd).mp he
    exact ⟨target, by rw [at?_cons, entries_dir, hentry, Option.bind_some, hat]⟩

/-- No location of a link is listed twice. -/
theorem nodup_linksOf {node : FileNode} (hp : node.isProper = true) : (linksOf node).Nodup := by
  induction node using induct_entries with
  | leaf node hn => cases node <;> simp_all [linksOf, isDir]
  | dir es ih =>
    obtain ⟨hnd, hall⟩ := areProper_iff.mp hp
    have hlinks : ∀ xs : List (Text × FileNode), (xs.map Prod.fst).Nodup → (∀ e ∈ xs, e ∈ es) →
        (linksIn xs).Nodup := by
      intro xs hxs hsub
      induction xs with
      | nil => exact List.nodup_nil
      | cons e xs ihxs =>
        obtain ⟨hnew, hxs⟩ := List.nodup_cons.mp hxs
        have he := hsub e List.mem_cons_self
        refine List.nodup_append.mpr ⟨?_, ?_, ?_⟩
        · exact (ih e he (hall e he).2).map (List.cons_injective)
        · exact ihxs hxs fun x hx => hsub x (List.mem_cons_of_mem _ hx)
        · -- the names of the other entries are different
          rintro _ hl _ hr rfl
          obtain ⟨rest, -, rfl⟩ := List.mem_map.mp hl
          obtain ⟨e', he', rest', -, heq⟩ := exists_of_mem_linksIn hr
          exact hnew ((List.cons.inj heq).1 ▸ List.mem_map_of_mem he')
    exact hlinks es hnd fun _ he => he

/-! ## The same links -/

/-- Whether the same links are at the same locations, and relative names start at the same one. -/
structure SameLinks (t t' : FileTree) : Prop where
  here : t'.here = t.here
  link : ∀ loc target, t'.at? loc = some (.link target) ↔ t.at? loc = some (.link target)

namespace SameLinks

variable {t t' : FileTree}

theorem countLinks_congr (h : SameLinks t t') (ht : t.Proper) (ht' : t'.Proper) :
    countLinks t'.root = countLinks t.root := by
  rw [← length_linksOf, ← length_linksOf]
  refine ((List.perm_ext_iff_of_nodup (nodup_linksOf ht'.names) (nodup_linksOf ht.names)).mpr
    fun loc => ?_).length_eq
  rw [mem_linksOf_iff ht'.names, mem_linksOf_iff ht.names]
  exact exists_congr fun target => h.link loc target

/-- Links are replaced alike. -/
theorem replaceLinks_congr (h : SameLinks t t')
    {enter enter' : List Location → Location → List Text → RealPath}
    (henter : ∀ opened loc parts, enter' opened loc parts = enter opened loc parts)
    (opened : List Location) (loc : Location) (parts : List Text) :
    t'.replaceLinks enter' opened loc parts = t.replaceLinks enter opened loc parts := by
  induction parts generalizing loc with
  | nil => simp only [replaceLinks]
  | cons part rest ih =>
    simp only [replaceLinks]
    split
    · exact ih loc
    split
    · exact ih _
    by_cases hlink : ∃ target, t.at? (loc ++ [part]) = some (.link target)
    · obtain ⟨target, hat⟩ := hlink
      simp only [hat, (h.link _ _).mpr hat, henter, ih]
    · have hno : ∀ target, t.at? (loc ++ [part]) ≠ some (.link target) := fun target h =>
        hlink ⟨target, h⟩
      have hno' : ∀ target, t'.at? (loc ++ [part]) ≠ some (.link target) := fun target h' =>
        hlink ⟨target, (h.link _ _).mp h'⟩
      split
      · exact absurd ‹_› (hno' _)
      · exact ih _

theorem realFrom_congr (h : SameLinks t t') (depth : Nat) (opened : List Location) (loc : Location)
    (parts : List Text) : t'.realFrom depth opened loc parts = t.realFrom depth opened loc parts := by
  induction depth generalizing opened loc parts with
  | zero => exact h.replaceLinks_congr (fun _ _ _ => rfl) opened loc parts
  | succ n ih => exact h.replaceLinks_congr ih opened loc parts

/-- **Where the same links are, a path has the same real path.** -/
theorem realPath_congr (h : SameLinks t t') (ht : t.Proper) (ht' : t'.Proper) (p : PathName) :
    t'.realPath p = t.realPath p := by
  have hstart : t'.startOf p = t.startOf p := by rw [startOf, startOf, h.here]
  rw [realPath, realPath, h.countLinks_congr ht ht', hstart, h.realFrom_congr]

end SameLinks

/-- Trees of one shape have the same links. -/
theorem SameShape.sameLinks {t t' : FileTree} (h : SameShape t t') : SameLinks t t' := by
  have himp : ∀ {t t' : FileTree}, SameShape t t' → ∀ {loc : Location} {target : Text},
      t.at? loc = some (.link target) → t'.at? loc = some (.link target) := by
    intro t t' h loc target hat
    rcases h.at?_cases loc with ⟨hn, -⟩ | ⟨node, node', hn, hn', hs⟩
    · rw [hat] at hn
      cases hn
    · rw [hat] at hn
      cases hn
      rw [hn', (shape_eq_self_iff rfl (by simp)).mp hs]
  exact ⟨h.here, fun loc target => ⟨himp h.symm, himp h⟩⟩

/-- So have trees that differ where no link is. -/
theorem AgreeBut.sameLinks {t t' : FileTree} {loc : Location} (h : t.AgreeBut t' loc)
    (hno : ∀ target, t.at? loc ≠ some (.link target))
    (hno' : ∀ target, t'.at? loc ≠ some (.link target)) : SameLinks t t' := by
  refine ⟨h.here, fun other target => ?_⟩
  by_cases hne : other = loc
  · subst hne
    exact iff_of_false (hno' target) (hno target)
  · have ho := h.outline other hne
    have hlink : ∀ x : Option FileNode,
        x = some (.link target) ↔ x.map FileNode.outline = some (.link target) := by
      intro x
      cases x with
      | none => simp
      | some node =>
        rw [Option.map_some, Option.some_inj, Option.some_inj, outline_eq_iff (m := .link target) rfl]
    rw [hlink, hlink (t.at? other), ho]

/-- In trees of one shape a name has the same real path, or none in both. -/
theorem SameShape.resolve_congr {t t' : FileTree} (h : SameShape t t') (ht : t.Proper)
    (ht' : t'.Proper) (p : PathName) : t'.resolve p = t.resolve p := by
  rw [resolve, resolve, h.sameLinks.realPath_congr ht ht']
  split
  · rfl
  rcases h.find?_cases (t.realPath p) with ⟨heq, -⟩ | ⟨loc, node, node', hf, hf', -⟩
  · simp only [heq]
  · simp only [hf, hf']

end FileTree

/-! ## Questions to version control -/

namespace Git

variable {t t' : FileTree}

/-- The same repositories, with their directories in place. -/
structure SameRepositories (t t' : FileTree) : Prop where
  repositories : t'.repositories = t.repositories
  gitDir : ∀ loc, (t'.at? (loc ++ [gitDir])).map FileNode.shape =
    (t.at? (loc ++ [gitDir])).map FileNode.shape

theorem repositoryAt?_congr (h : SameRepositories t t') (loc : Location) :
    repositoryAt? t' loc = repositoryAt? t loc := by
  rw [repositoryAt?, repositoryAt?, h.repositories]
  rcases FileNode.cases_of_map_shape (h.gitDir loc) with ⟨hn, hn'⟩ | ⟨node, node', hn, hn', hs⟩
  · rw [hn, hn']
  · rw [hn, hn']
    cases node <;> cases node' <;> simp_all [FileNode.shape]

theorem repositoryFrom_congr (h : SameRepositories t t') (levels : Nat) (loc : Location) :
    repositoryFrom t' levels loc = repositoryFrom t levels loc := by
  induction levels generalizing loc with
  | zero => rw [repositoryFrom, repositoryFrom, repositoryAt?_congr h]
  | succ n ih => rw [repositoryFrom, repositoryFrom, repositoryAt?_congr h, ih]

theorem belowTop?_congr (h : FileTree.SameLinks t t') (ht : t.Proper) (ht' : t'.Proper)
    (top : Location) (parts : List Text) : belowTop? t' top parts = belowTop? t top parts := by
  rw [belowTop?, belowTop?]
  simp only [h.realPath_congr ht ht']

theorem namesFor_congr (hlinks : FileTree.SameLinks t t') (ht : t.Proper) (ht' : t'.Proper)
    (r : Repository) (dir : Location) (path : Text) :
    namesFor t' r dir path = namesFor t r dir path := by
  have hbelow : belowTop? t' = belowTop? t := funext₂ (belowTop?_congr hlinks ht ht')
  rw [namesFor, namesFor, pathspecIn?, pathspecIn?, hbelow]

/-- **The same question has the same answer.** -/
theorem listingIn_congr (hrepos : SameRepositories t t') (hlinks : FileTree.SameLinks t t')
    (ht : t.Proper) (ht' : t'.Proper) (dir : Location) (path : Text) :
    listingIn t' dir path = listingIn t dir path := by
  rw [listingIn, listingIn, repositoryOf?, repositoryOf?, repositoryFrom_congr hrepos]
  simp only [namesFor_congr hlinks ht ht']

theorem absolute_congr (h : t'.here = t.here) (p : PathName) : absolute t' p = absolute t p := by
  rw [absolute, absolute, FileTree.startOf, FileTree.startOf, h]

/-- In trees of one shape a question is asked in the same directory. -/
theorem workingDir_congr (h : FileTree.SameShape t t') (p : PathName) :
    workingDir t' p = workingDir t p := by
  rw [workingDir, workingDir, absolute_congr h.here, h.here]
  rcases h.find?_cases (absolute t p) with ⟨heq, -⟩ | ⟨loc, node, node', hf, hf', hs⟩
  · rw [heq]
  · rw [hf, hf']
    cases node <;> cases node' <;> simp_all [FileNode.shape]

end Git

/-- Whoever is asked answers the same, if version control is asked in the same directory. -/
theorem Inventory.answer_congr {t t' : FileTree} (hrepos : Git.SameRepositories t t')
    (hlinks : FileTree.SameLinks t t') (ht : t.Proper) (ht' : t'.Proper) {root : PathName}
    (hdir : Git.workingDir t' root = Git.workingDir t root) (tracker : Tracker) (path : Text) :
    answer t' root tracker path = answer t root tracker path := by
  cases tracker with
  | given ask => rfl
  | program git => rfl
  | repository installed =>
    simp only [answer, answerOf, Git.Program.isRepository, Git.Program.isTracked, Git.program, hdir,
      Git.repositoryOf?, Git.repositoryFrom_congr hrepos, Git.listingIn_congr hrepos hlinks ht ht']

end EnvAudit
