import EnvAudit.Proofs.FileIsolation
import EnvAudit.Proofs.SameLinks

/-!
# Trees with one file more

A new file changes where a name leads only if it led to the place of the file, or through it, where
nothing was (`AddsFile.find?_cases`). So a walk yields the same files in the same order, with the
new one among them unless it is left out (`AddsFile.candidatesIn_eq`). What is in the other files
stays, but for links that lead to the new one: they had no text before.
-/
namespace EnvAudit

namespace FileTree

open FileNode

/-! ## Look-ups below a directory -/

section

variable {t : FileTree} {base loc : Location} {es : List (Text × FileNode)} {parts : List Text}

/-- Behind parts that lead to a directory a descent goes on from there, and behind a link it has
more parts left. -/
theorem descend_append (rest : List Text) :
    (∀ base es, t.descend true loc parts = .done (.found base (.dir es)) →
        t.descend true loc (parts ++ rest) = t.descend true base rest) ∧
      ∀ dir target behind, t.descend true loc parts = .atLink dir target behind →
        t.descend true loc (parts ++ rest) = .atLink dir target (behind ++ rest) := by
  induction parts generalizing loc with
  | nil =>
    rw [descend, List.nil_append]
    cases t.at? loc <;> simp_all
  | cons part parts ih =>
    simp only [List.cons_append, descend]
    split
    · exact ih
    split
    · exact ih
    split
    · simp
    cases t.at? (loc ++ [part]) with
    | none => cases parts <;> simp
    | some node =>
      cases node with
      | dir _ => exact ih
      | link _ => simp
      | file _ | pipe => cases parts <;> simp

/-- Behind parts that lead to a directory a look-up goes on from there, with fewer links to spare.
-/
theorem follow_append {links : Nat}
    (h : t.follow true links loc parts = .ok (.found base (.dir es))) (rest : List Text) :
    ∃ left, t.follow true links loc (parts ++ rest) = t.follow true left base rest := by
  induction links generalizing loc parts with
  | zero =>
    rw [follow] at h
    split at h <;> cases h
    rename_i hd
    exact ⟨0, by rw [follow, follow, (descend_append rest).1 _ _ hd]⟩
  | succ n ih =>
    rw [follow] at h
    split at h
    · rename_i hd
      cases h
      exact ⟨n + 1, by rw [follow, follow, (descend_append rest).1 _ _ hd]⟩
    · cases h
    · rename_i hd
      obtain ⟨left, hleft⟩ := ih h
      refine ⟨left, ?_⟩
      rw [follow, (descend_append rest).2 _ _ _ hd, ← hleft, List.append_assoc]

/-- A file in a directory is found under its name behind the name of the directory. -/
theorem find?_child {root : PathName} (h : t.find? root = .ok (some (base, .dir es))) {name : Text}
    (hname : isEntryName name = true) (hlen : isNameTooLong name = false) {bytes : List UInt8}
    (hat : t.at? (base ++ [name]) = some (.file bytes)) :
    t.find? (root.child name) = .ok (some (base ++ [name], .file bytes)) := by
  have hnull := isNullFree_of_find? h
  have hchild : (root.child name).parts.any (·.contains '\x00') = false := by
    have hlast : '\x00' ∉ name := (isEntryName_iff.mp hname).2.2.2.2
    rw [PathName.child, List.any_append, isNullFree_iff.mp hnull]
    simpa using hlast
  rw [find?_eq_found_iff, lookup, isNullFree_iff.mp hnull] at h
  obtain ⟨left, hleft⟩ := follow_append h [name]
  obtain ⟨hstay, hup⟩ := isName_of_isEntryName hname
  have hend : t.descend true base [name] = .done (.found (base ++ [name]) (.file bytes)) := by
    simp only [descend, if_neg hstay, if_neg hup, hlen, hat]
    rfl
  rw [find?_eq_found_iff, lookup, hchild]
  change t.follow true maxLinks (t.startOf root) (root.parts ++ [name]) = _
  rw [hleft]
  cases left <;> rw [follow, hend]

end

/-! ## One file more -/

/-- Whether one tree is another with one file more, in a directory that is there. -/
structure AddsFile (t t' : FileTree) (dir : Location) (name : Text) (bytes : List UInt8) :
    Prop where
  others : t.AgreeBut t' (dir ++ [name])
  absent : t.at? (dir ++ [name]) = none
  present : t'.at? (dir ++ [name]) = some (.file bytes)

/-- How descents stop in two trees of which the second has a file more: alike; at the file, where
nothing was; or at the file on the way to something behind it. -/
inductive StopsBeside (dir : Location) (name : Text) (bytes : List UInt8) : Stop → Stop → Prop
  | alike {s s' : Stop} (h : s'.shape = s.shape) : StopsBeside dir name bytes s s'
  | atFile : StopsBeside dir name bytes (.done (.vacant dir name))
      (.done (.found (dir ++ [name]) (.file bytes)))
  | behind : StopsBeside dir name bytes (.problem .notFound) (.problem .notDirectory)

/-- How look-ups end in two trees of which the second has a file more. -/
inductive EndsBeside (dir : Location) (name : Text) (bytes : List UInt8) :
    Except PathProblem Target → Except PathProblem Target → Prop
  | alike {x x' : Except PathProblem Target} (h : x'.map Target.shape = x.map Target.shape) :
      EndsBeside dir name bytes x x'
  | atFile : EndsBeside dir name bytes (.ok (.vacant dir name))
      (.ok (.found (dir ++ [name]) (.file bytes)))
  | behind : EndsBeside dir name bytes (.error .notFound) (.error .notDirectory)

namespace AddsFile

variable {t t' : FileTree} {dir : Location} {name : Text} {bytes : List UInt8}

theorem shape (h : t.AddsFile t' dir name bytes) {loc : Location} (hne : loc ≠ dir ++ [name]) :
    (t'.at? loc).map FileNode.shape = (t.at? loc).map FileNode.shape :=
  map_shape_of_map_outline (h.others.outline loc hne)

theorem ne_of_at? (h : t.AddsFile t' dir name bytes) {loc : Location} {node : FileNode}
    (hat : t.at? loc = some node) : loc ≠ dir ++ [name] := by
  rintro rfl
  rw [h.absent] at hat
  cases hat

theorem isRealDir (h : t.AddsFile t' dir name bytes) {loc : Location} (hloc : t.IsRealDir loc) :
    t'.IsRealDir loc := by
  obtain ⟨es, hes⟩ := hloc
  have ho := h.others.outline loc (h.ne_of_at? hes)
  rw [hes] at ho
  obtain ⟨node', hat', ho'⟩ := Option.map_eq_some_iff.mp ho
  cases node' <;> simp only [outline, reduceCtorEq] at ho'
  exact ⟨_, hat'⟩

/-- That is so after a file was put where nothing was. -/
theorem of_put (hdir : t.IsRealDir dir) (hno : t.at? (dir ++ [name]) = none) :
    t.AddsFile (t.put (dir ++ [name]) (.file bytes)) dir name bytes where
  others := by
    refine agreeBut_put rfl ?_ ?_
    · intro old hold
      rw [hno] at hold
      cases hold
    · intro base other heq
      obtain ⟨rfl, -⟩ := List.append_inj' heq rfl
      exact hdir
  absent := hno
  present := at?_put_self

/-! ## Look-ups -/

/-- From a directory that is there a descent stops alike, or at the file. -/
theorem descend_beside (h : t.AddsFile t' dir name bytes) {loc : Location} (hloc : t.IsRealDir loc)
    (parts : List Text) :
    StopsBeside dir name bytes (t.descend true loc parts) (t'.descend true loc parts) := by
  induction parts generalizing loc with
  | nil =>
    obtain ⟨es, hes⟩ := hloc
    obtain ⟨es', hes'⟩ := h.isRealDir ⟨es, hes⟩
    refine .alike ?_
    simp [descend, hes, hes', Stop.shape, Target.shape, FileNode.shape]
  | cons part rest ih =>
    by_cases hhere : loc ++ [part] = dir ++ [name]
    · obtain ⟨rfl, hpart⟩ := List.append_inj' hhere rfl
      cases hpart
      have hstay := ih hloc
      have hup := ih hloc.dropLast
      simp only [descend, h.absent, h.present]
      split
      · exact hstay
      split
      · exact hup
      split
      · exact .alike rfl
      cases rest with
      | nil => exact .atFile
      | cons _ _ => exact .behind
    · exact descend_cons_congr (fun _ _ => .alike) (ih hloc) (ih hloc.dropLast) (h.shape hhere)
        fun es hat => ih ⟨es, hat⟩

/-- From a directory that is there a look-up ends alike, or at the file. -/
theorem follow_beside (h : t.AddsFile t' dir name bytes) (hroot : t.IsRealDir []) {links : Nat}
    {loc : Location} (hloc : t.IsRealDir loc) (parts : List Text) :
    EndsBeside dir name bytes (t.follow true links loc parts) (t'.follow true links loc parts) := by
  induction links generalizing loc parts with
  | zero =>
    have hstop := h.descend_beside hloc parts
    rw [follow, follow]
    generalize t.descend true loc parts = s at hstop ⊢
    generalize t'.descend true loc parts = s' at hstop ⊢
    cases hstop with
    | atFile => exact .atFile
    | behind => exact .behind
    | alike hs => exact .alike (by cases s <;> cases s' <;> simp_all [Stop.shape, Except.map])
  | succ n ih =>
    have hstop := h.descend_beside hloc parts
    have harrives := arrives_descend hloc parts
    rw [follow, follow]
    generalize t.descend true loc parts = s at hstop harrives ⊢
    generalize t'.descend true loc parts = s' at hstop ⊢
    cases hstop with
    | atFile => exact .atFile
    | behind => exact .behind
    | alike hs =>
      cases s with
      | atLink dir' target rest =>
        -- both go on behind the same link, which is in a directory that is there
        obtain ⟨part, -, hat, -⟩ := harrives
        obtain rfl : s' = .atLink dir' target rest := by cases s' <;> simp_all [Stop.shape]
        exact ih (IsRealDir.linkStart hroot (.of_at? hat) target) _
      | done _ | problem _ =>
        exact .alike (by cases s' <;> simp_all [Stop.shape, Except.map])

/-- **What a name leads to with a file more**: to the same place as without; to nothing in both
trees; to the file, where it led to nothing; or nowhere in both, for it leads through the file. -/
theorem find?_cases (h : t.AddsFile t' dir name bytes) (ht : t.Proper) (p : PathName) :
    (t'.find? p = t.find? p ∧ ∀ x, t.find? p ≠ .ok (some x)) ∨
      (∃ loc node node', t.find? p = .ok (some (loc, node)) ∧
        t'.find? p = .ok (some (loc, node')) ∧ node'.outline = node.outline) ∨
      (t.find? p = .ok none ∧ t'.find? p = .ok (some (dir ++ [name], .file bytes))) ∨
      (t.find? p = .error .notFound ∧ t'.find? p = .error .notDirectory) := by
  have hlookup : EndsBeside dir name bytes (t.lookup p true) (t'.lookup p true) := by
    have hstart : t'.startOf p = t.startOf p := by rw [startOf, startOf, h.others.here]
    rw [lookup, lookup, hstart]
    split
    · exact .alike rfl
    · exact h.follow_beside ht.isRealDir_root (ht.isRealDir_startOf p) p.parts
  rw [find?, find?]
  generalize hx : t.lookup p true = x at hlookup ⊢
  generalize hx' : t'.lookup p true = x' at hlookup ⊢
  cases hlookup with
  | atFile => exact .inr (.inr (.inl ⟨rfl, rfl⟩))
  | behind => exact .inr (.inr (.inr ⟨rfl, rfl⟩))
  | alike hs =>
    cases x with
    | error e =>
      cases x' <;> simp_all [Except.map]
    | ok target =>
      cases target with
      | vacant d n =>
        cases x' with
        | error e => simp_all [Except.map]
        | ok target' => cases target' <;> simp_all [Except.map, Target.shape]
      | found loc node =>
        obtain ⟨node', rfl, -⟩ := found_of_map_shape hs rfl
        have hat := at?_of_find? (find?_eq_found_iff.mpr hx)
        have hat' := at?_of_find? (find?_eq_found_iff.mpr hx')
        have ho := h.others.outline loc (h.ne_of_at? hat)
        rw [hat, hat'] at ho
        exact .inr (.inl ⟨loc, node, node', rfl, rfl, Option.some.inj ho⟩)

/-- A name that leads to a directory leads to the same one. -/
theorem find?_dir (h : t.AddsFile t' dir name bytes) (ht : t.Proper) {p : PathName}
    {loc : Location} {es : List (Text × FileNode)} (hf : t.find? p = .ok (some (loc, .dir es))) :
    ∃ es', t'.find? p = .ok (some (loc, .dir es')) := by
  rcases h.find?_cases ht p with ⟨-, hno⟩ | ⟨l, n, node', hn, hn', ho⟩ | ⟨hn, -⟩ | ⟨hn, -⟩
  · exact absurd hf (hno _)
  · rw [hf] at hn
    cases hn
    cases node' <;> simp only [outline, reduceCtorEq] at ho
    exact ⟨_, hn'⟩
  · simp [hf] at hn
  · simp [hf] at hn

/-- What a name leads to has the same text, or it is the file, and nothing was there before. -/
theorem readText_cases (h : t.AddsFile t' dir name bytes) (ht : t.Proper) (p : PathName)
    (maxSize : Int) :
    t'.readText p maxSize = t.readText p maxSize ∨
      t.readText p maxSize = .ok none ∧ t'.find? p = .ok (some (dir ++ [name], .file bytes)) := by
  simp only [readText, bytesOf?]
  rcases h.find?_cases ht p with ⟨heq, -⟩ | ⟨loc, node, node', hn, hn', ho⟩ | ⟨hn, hn'⟩ | ⟨hn, hn'⟩
  · exact .inl (by rw [heq])
  · refine .inl ?_
    rw [hn, hn']
    cases node <;> cases node' <;> simp_all [outline]
  · exact .inr ⟨by rw [hn], hn'⟩
  · exact .inl (by rw [hn, hn'])

/-! ## Walks -/

theorem leadsToDir_congr (h : t.AddsFile t' dir name bytes) (hroot : t.IsRealDir [])
    {loc : Location} (hloc : t.IsRealDir loc) (other : Text) :
    t'.leadsToDir loc other = t.leadsToDir loc other := by
  have hends : EndsBeside dir name bytes (t.follow true maxLinks loc [other])
      (t'.follow true maxLinks loc [other]) := h.follow_beside hroot hloc [other]
  rw [leadsToDir, leadsToDir]
  generalize t.follow true maxLinks loc [other] = x at hends ⊢
  generalize t'.follow true maxLinks loc [other] = x' at hends ⊢
  cases hends with
  | atFile => rfl
  | behind => rfl
  | alike hs =>
    cases x with
    | error _ => cases x' <;> simp_all [Except.map]
    | ok target =>
      cases x' with
      | error _ => simp_all [Except.map]
      | ok target' =>
        cases target with
        | vacant _ _ => cases target' <;> simp_all [Except.map, Target.shape]
        | found _ node =>
          cases target' with
          | vacant _ _ => simp_all [Except.map, Target.shape]
          | found _ node' =>
            cases node <;> cases node' <;> simp_all [Except.map, Target.shape, FileNode.shape]

/-- An entry that was there counts as a directory in both trees or in none. -/
theorem countsAsDir_congr (h : t.AddsFile t' dir name bytes) (hroot : t.IsRealDir [])
    {loc : Location} {other : Text} {node node' : FileNode}
    (hat : t.at? (loc ++ [other]) = some node) (ho : node'.outline = node.outline) :
    t'.countsAsDir loc other node' = t.countsAsDir loc other node := by
  have hleads := h.leadsToDir_congr hroot (.of_at? hat) other
  cases node <;> cases node' <;> simp_all [outline, countsAsDir]

/-- Below its directory there are the same files and the new one. -/
theorem hasFile_iff (h : t.AddsFile t' dir name bytes) (hroot : t.IsRealDir []) (path : RelPath) :
    t'.HasFile dir path ↔ t.HasFile dir path ∨ path = [name] := by
  have hother : ∀ dirs other, dirs ++ [other] ≠ [name] → dir ++ (dirs ++ [other]) ≠ dir ++ [name] :=
    fun _ _ hne heq => hne (List.append_cancel_left heq)
  constructor
  · rintro ⟨dirs, other, node', rfl, hat', hc⟩
    by_cases hne : dirs ++ [other] = [name]
    · exact .inr hne
    have ho := h.others.outline _ (hother dirs other hne)
    rw [hat'] at ho
    obtain ⟨node, hat, ho⟩ := Option.map_eq_some_iff.mp ho.symm
    refine .inl ⟨dirs, other, node, rfl, hat, ?_⟩
    rw [← List.append_assoc] at hat
    rw [← h.countsAsDir_congr hroot hat ho.symm, hc]
  · rintro (⟨dirs, other, node, rfl, hat, hc⟩ | rfl)
    · have ho := h.others.outline _ (h.ne_of_at? hat)
      rw [hat] at ho
      obtain ⟨node', hat', ho⟩ := Option.map_eq_some_iff.mp ho
      refine ⟨dirs, other, node', rfl, hat', ?_⟩
      rw [← List.append_assoc] at hat
      rw [h.countsAsDir_congr hroot hat ho, hc]
    · exact ⟨[], name, .file bytes, rfl, h.present, rfl⟩

/-- In the order of a walk there is one place for one path more. -/
theorem exists_place {paths paths' : List RelPath} {new : RelPath}
    (hord : paths.Pairwise RelPath.Before) (hord' : paths'.Pairwise RelPath.Before)
    (hmem : ∀ path, path ∈ paths' ↔ path ∈ paths ∨ path = new) (hnew : new ∉ paths) :
    ∃ before after, paths = before ++ after ∧ paths' = before ++ [new] ++ after := by
  obtain ⟨before, after, rfl⟩ := List.append_of_mem ((hmem new).mpr (.inr rfl))
  refine ⟨before, after, ?_, by simp⟩
  have hrest : new ∉ before ++ after :=
    (List.nodup_cons.mp (List.nodup_middle.mp hord'.nodup)).1
  refine List.Pairwise.eq_of_mem_iff hord
    (hord'.sublist ((List.sublist_cons_self _ _).append_left before)) fun path => ?_
  by_cases hself : path = new
  · subst hself
    exact iff_of_false hnew hrest
  · simpa [hself] using (hmem path).symm

/-- **A walk yields the same files in the same order**, with the new one among them unless it is
left out. -/
theorem candidatesIn_eq (h : t.AddsFile t' dir name bytes) (ht : t.Proper) (ht' : t'.Proper)
    {node node' : FileNode} (hat : t.at? dir = some node) (hat' : t'.at? dir = some node')
    (globs : List Text) :
    ∃ before new after, t.candidatesIn globs dir [] node = before ++ after ∧
      t'.candidatesIn globs dir [] node' = before ++ new ++ after ∧
      (IsKept globs [name] → new = [[name]]) ∧ (¬ IsKept globs [name] → new = []) := by
  have hord : (t.candidatesIn globs dir [] node).Pairwise RelPath.Before :=
    candidatesIn_pairwise (ht.isProper_of_at? hat)
  have hord' : (t'.candidatesIn globs dir [] node').Pairwise RelPath.Before :=
    candidatesIn_pairwise (ht'.isProper_of_at? hat')
  have hmem : ∀ path, path ∈ t'.candidatesIn globs dir [] node' ↔
      path ∈ t.candidatesIn globs dir [] node ∨ path = [name] ∧ IsKept globs [name] := by
    intro path
    rw [mem_candidatesIn_iff ht' hat', mem_candidatesIn_iff ht hat,
      h.hasFile_iff ht.isRealDir_root, or_and_right]
    refine or_congr_right (and_congr_right ?_)
    rintro rfl
    rfl
  by_cases hkept : IsKept globs [name]
  · have hnew : [name] ∉ t.candidatesIn globs dir [] node := by
      intro hin
      obtain ⟨⟨dirs, other, n, -, hn, -⟩, -⟩ := (mem_candidatesIn_iff ht hat _).mp hin
      exact h.ne_of_at? hn rfl
    obtain ⟨before, after, hall, hall'⟩ :=
      exists_place hord hord' (fun path => by simp [hmem path, hkept]) hnew
    exact ⟨before, [[name]], after, hall, hall', fun _ => rfl, fun hno => absurd hkept hno⟩
  · have hsame : t'.candidatesIn globs dir [] node' = t.candidatesIn globs dir [] node :=
      List.Pairwise.eq_of_mem_iff hord' hord fun path => by simp [hmem path, hkept]
    refine ⟨_, [], [], (List.append_nil _).symm, ?_, fun hk => absurd hk hkept, fun _ => rfl⟩
    rw [hsame, List.append_nil, List.append_nil]

/-! ## Questions -/

theorem sameLinks (h : t.AddsFile t' dir name bytes) : SameLinks t t' := by
  refine h.others.sameLinks (fun target => ?_) fun target => ?_
  · rw [h.absent]
    simp
  · rw [h.present]
    simp

/-- A question is asked in the same directory. -/
theorem workingDir_congr (h : t.AddsFile t' dir name bytes) (ht : t.Proper) (p : PathName) :
    Git.workingDir t' p = Git.workingDir t p := by
  rw [Git.workingDir, Git.workingDir, Git.absolute_congr h.others.here, h.others.here]
  rcases h.find?_cases ht (Git.absolute t p) with ⟨heq, -⟩ | ⟨loc, node, node', hn, hn', ho⟩ |
    ⟨hn, hn'⟩ | ⟨hn, hn'⟩
  · rw [heq]
  · rw [hn, hn']
    cases node <;> cases node' <;> simp_all [outline]
  · rw [hn, hn']
  · rw [hn, hn']

/-- Whoever is asked answers the same, if the file is not called like the directory of a repository.
-/
theorem answer_congr (h : t.AddsFile t' dir name bytes) (ht : t.Proper) (ht' : t'.Proper)
    (hname : name ≠ Git.gitDir) (root : PathName) (tracker : Tracker) (path : Text) :
    Inventory.answer t' root tracker path = Inventory.answer t root tracker path := by
  have hrepos : Git.SameRepositories t t' := by
    refine ⟨h.others.repositories, fun loc => h.shape fun heq => ?_⟩
    exact hname (List.cons.inj (List.append_inj' heq rfl).2).1.symm
  exact Inventory.answer_congr hrepos h.sameLinks ht ht' (h.workingDir_congr ht root) tracker path

end AddsFile
end FileTree
end EnvAudit
