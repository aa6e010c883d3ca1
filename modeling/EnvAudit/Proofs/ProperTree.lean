import EnvAudit.FileTree.Access

/-!
# Proper file trees

`FileTree` is a plain data type, so it also has values that no file system shows: two entries of
one name in a directory, an entry called `..`, relative names that start at a file. `Proper` rules
them out. Two proper trees with the same outline at every location (`Agree`) differ only in the
order in which directories list their entries, and no look-up sees that order (`Agree.find?_congr`).
Nor does a look-up see what is in a file: it is enough that the trees have the same shape
(`SameShape.find?_congr`, `SameShape.leadsToDir_congr`).
-/
namespace EnvAudit

/-- Whether an entry can have the name: neither empty nor a dot nor two, and without slashes and
null characters. -/
def isEntryName (name : Text) : Bool :=
  name != [] && name != ['.'] && name != ['.', '.'] && !name.contains '/' && !name.contains '\x00'

theorem isEntryName_iff {name : Text} :
    isEntryName name = true ↔
      name ≠ [] ∧ name ≠ ['.'] ∧ name ≠ ['.', '.'] ∧ '/' ∉ name ∧ '\x00' ∉ name := by
  simp [isEntryName, and_assoc]

namespace FileNode

/-- Induction on a node: what holds of a directory if it holds of its entries, and of all else,
holds of every node. -/
theorem induct_entries {P : FileNode → Prop} (leaf : ∀ node, node.isDir = false → P node)
    (dir : ∀ es, (∀ e ∈ es, P e.2) → P (.dir es)) (node : FileNode) : P node := by
  refine FileNode.rec (motive_1 := P) (motive_2 := fun es => ∀ e ∈ es, P e.2)
    (motive_3 := fun e => P e.2) ?_ dir ?_ ?_ ?_ ?_ ?_ node
  · exact fun bytes => leaf _ rfl
  · exact fun target => leaf _ rfl
  · exact leaf _ rfl
  · simp
  · intro e es he hes x hx
    rcases List.mem_cons.mp hx with rfl | hx
    · exact he
    · exact hes x hx
  · exact fun _ _ h => h

/-! ## Possible names, each once -/

mutual

/-- Whether every directory below has possible names, each once. -/
def isProper : FileNode → Bool
  | .dir es => areProper es
  | .file _ | .link _ | .pipe => true

/-- Whether the entries of a directory have possible names, each once, and so has what is below. -/
def areProper : List (Text × FileNode) → Bool
  | [] => true
  | (name, node) :: rest =>
    isEntryName name && !(rest.map Prod.fst).contains name && isProper node && areProper rest

end

theorem areProper_iff {es : List (Text × FileNode)} :
    areProper es = true ↔
      (es.map Prod.fst).Nodup ∧ ∀ e ∈ es, isEntryName e.1 = true ∧ isProper e.2 = true := by
  induction es with
  | nil => simp [areProper]
  | cons e es ih =>
    obtain ⟨name, node⟩ := e
    simp only [areProper, Bool.and_eq_true, ih, List.map_cons, List.nodup_cons, List.mem_cons,
      forall_eq_or_imp, Bool.not_eq_true', List.contains_eq_mem, decide_eq_false_iff_not]
    constructor
    · rintro ⟨⟨⟨hn, hd⟩, hp⟩, hnd, hall⟩
      exact ⟨⟨hd, hnd⟩, ⟨hn, hp⟩, hall⟩
    · rintro ⟨⟨hd, hnd⟩, ⟨hn, hp⟩, hall⟩
      exact ⟨⟨⟨hn, hd⟩, hp⟩, hnd, hall⟩

theorem mem_of_entryAt? {name : Text} {node : FileNode} {es : List (Text × FileNode)}
    (h : entryAt? name es = some node) : (name, node) ∈ es := by
  induction es with
  | nil => simp [entryAt?] at h
  | cons e es ih =>
    obtain ⟨n, m⟩ := e
    simp only [entryAt?] at h
    split at h
    · rename_i hn
      subst hn
      simp_all
    · exact List.mem_cons_of_mem _ (ih h)

/-- Where each name is there once, an entry is what its name leads to. -/
theorem mem_iff_entryAt? {name : Text} {node : FileNode} {es : List (Text × FileNode)}
    (h : (es.map Prod.fst).Nodup) : (name, node) ∈ es ↔ entryAt? name es = some node := by
  refine ⟨fun hm => ?_, mem_of_entryAt?⟩
  induction es with
  | nil => simp at hm
  | cons e es ih =>
    obtain ⟨n, m⟩ := e
    obtain ⟨hn, hnd⟩ := List.nodup_cons.mp h
    simp only [entryAt?]
    rcases List.mem_cons.mp hm with he | he
    · cases he
      simp
    · have hne : n ≠ name := fun e => hn (List.mem_map.mpr ⟨(name, node), he, e.symm⟩)
      rw [if_neg hne, ih hnd he]

/-- The order of the entries does not matter for what a name leads to. -/
theorem entryAt?_of_perm {es es' : List (Text × FileNode)} (hnd : (es.map Prod.fst).Nodup)
    (h : es.Perm es') (name : Text) : entryAt? name es' = entryAt? name es := by
  have hnd' : (es'.map Prod.fst).Nodup := (h.map Prod.fst).nodup_iff.mp hnd
  refine Option.ext fun node => ?_
  rw [← mem_iff_entryAt? hnd, ← mem_iff_entryAt? hnd', h.mem_iff]

theorem at?_cons (name : Text) (rest : Location) (node : FileNode) :
    node.at? (name :: rest) = (entryAt? name node.entries).bind (at? rest) := rfl

theorem at?_append (l l' : Location) (node : FileNode) :
    node.at? (l ++ l') = (node.at? l).bind (at? l') := by
  induction l generalizing node with
  | nil => rfl
  | cons name l ih =>
    rw [List.cons_append, at?_cons, at?_cons]
    cases entryAt? name node.entries with
    | none => rfl
    | some child => exact ih child

/-- Only directories have something below them. -/
theorem isDir_of_at?_cons {name : Text} {rest : Location} {node m : FileNode}
    (h : node.at? (name :: rest) = some m) : node.isDir = true := by
  cases node <;> simp [at?, entries, entryAt?, isDir] at h ⊢

theorem isProper_entry {name : Text} {node m : FileNode} (hp : node.isProper = true)
    (h : entryAt? name node.entries = some m) : isEntryName name = true ∧ m.isProper = true := by
  cases node with
  | dir es => exact (areProper_iff.mp hp).2 (name, m) (mem_of_entryAt? h)
  | _ => simp [entries, entryAt?] at h

/-- What is below a proper node is proper, and is found under possible names. -/
theorem isProper_at? {loc : Location} {node m : FileNode} (hp : node.isProper = true)
    (h : node.at? loc = some m) : m.isProper = true ∧ ∀ name ∈ loc, isEntryName name = true := by
  induction loc generalizing node with
  | nil =>
    cases h
    exact ⟨hp, by simp⟩
  | cons name rest ih =>
    rw [at?_cons] at h
    obtain ⟨child, hc, hr⟩ := Option.bind_eq_some_iff.mp h
    obtain ⟨hn, hcp⟩ := isProper_entry hp hc
    obtain ⟨hm, hall⟩ := ih hcp hr
    refine ⟨hm, fun x hx => ?_⟩
    rcases List.mem_cons.mp hx with rfl | hx
    · exact hn
    · exact hall x hx

/-! ## Outlines -/

/-- What is seen of a node without looking into it: of a directory, only that it is one. -/
def outline : FileNode → FileNode
  | .dir _ => .dir []
  | node => node

@[simp] theorem isDir_outline (node : FileNode) : node.outline.isDir = node.isDir := by
  cases node <;> rfl

theorem outline_eq_iff {node m : FileNode} (hm : m.isDir = false) :
    node.outline = m ↔ node = m := by
  cases node <;> cases m <;> simp_all [outline, isDir]

/-- What a look-up sees of a node: of a directory or a file, only that it is one. -/
def shape : FileNode → FileNode
  | .dir _ => .dir []
  | .file _ => .file []
  | node => node

@[simp] theorem isDir_shape (node : FileNode) : node.shape.isDir = node.isDir := by
  cases node <;> rfl

@[simp] theorem shape_outline (node : FileNode) : node.outline.shape = node.shape := by
  cases node <;> rfl

theorem map_shape_of_map_outline {x y : Option FileNode} (h : x.map outline = y.map outline) :
    x.map shape = y.map shape := by
  have hs := congrArg (Option.map shape) h
  simpa [Option.map_map, Function.comp_def] using hs

/-- Of two nodes of one shape either none is there or both. -/
theorem cases_of_map_shape {x y : Option FileNode} (h : y.map shape = x.map shape) :
    (x = none ∧ y = none) ∨ ∃ node node', x = some node ∧ y = some node' ∧ node'.shape = node.shape := by
  cases x with
  | none => exact .inl ⟨rfl, Option.map_eq_none_iff.mp h⟩
  | some node =>
    obtain ⟨node', hy, hs⟩ := Option.map_eq_some_iff.mp h
    exact .inr ⟨node, node', rfl, hy, hs⟩

/-- What has no more to it than its shape is what has its shape. -/
theorem shape_eq_self_iff {node m : FileNode} (hm : m.isDir = false)
    (hfile : ∀ bytes, m ≠ .file bytes) : node.shape = m.shape ↔ node = m := by
  cases node <;> cases m <;> simp_all [shape, isDir]

end FileNode

/-- What a look-up sees of a target. -/
def Target.shape : Target → Target
  | .found loc node => .found loc node.shape
  | .vacant loc name => .vacant loc name

/-- What a look-up sees of a stop. -/
def Stop.shape : Stop → Stop
  | .done target => .done target.shape
  | s => s

namespace FileTree

open FileNode

/-- A tree that a file system can show: possible names, each once in its directory, below a root
directory, and relative names that start at a directory. -/
structure Proper (t : FileTree) : Prop where
  names : t.root.isProper = true
  rootIsDir : t.root.isDir = true
  hereIsDir : (t.at? t.here).any isDir = true

theorem at?_append (t : FileTree) (l l' : Location) :
    t.at? (l ++ l') = (t.at? l).bind (FileNode.at? l') := FileNode.at?_append l l' t.root

/-- The names on the way to anything are possible names. -/
theorem Proper.isEntryName_of_at? {t : FileTree} (ht : t.Proper) {loc : Location} {node : FileNode}
    (h : t.at? loc = some node) : ∀ name ∈ loc, isEntryName name = true :=
  (isProper_at? ht.names h).2

theorem Proper.isProper_of_at? {t : FileTree} (ht : t.Proper) {loc : Location} {node : FileNode}
    (h : t.at? loc = some node) : node.isProper = true := (isProper_at? ht.names h).1

theorem find?_eq_found_iff {t : FileTree} {p : PathName} {loc : Location} {node : FileNode} :
    t.find? p = .ok (some (loc, node)) ↔ t.lookup p true = .ok (.found loc node) := by
  rw [find?]
  split <;> simp_all

theorem leadsToDir_iff {t : FileTree} {dir : Location} {name : Text} :
    t.leadsToDir dir name = true ↔
      ∃ loc node, t.follow true maxLinks dir [name] = .ok (.found loc node) ∧
        node.isDir = true := by
  rw [leadsToDir]
  split
  · rename_i loc es h
    exact ⟨fun _ => ⟨loc, .dir es, h, rfl⟩, fun _ => rfl⟩
  · rename_i h
    refine ⟨fun hf => by simp at hf, fun ⟨loc, node, hf, hd⟩ => ?_⟩
    cases node with
    | dir es => exact absurd hf (h loc es)
    | file _ | link _ | pipe => simp [isDir] at hd

/-! ## What is found is there -/

theorem descend_found {t : FileTree} {followLast : Bool} {start loc : Location} {parts : List Text}
    {node : FileNode} (h : t.descend followLast start parts = .done (.found loc node)) :
    t.at? loc = some node := by
  induction parts generalizing start with
  | nil =>
    rw [descend] at h
    split at h
    · cases h
      assumption
    · cases h
  | cons part rest ih =>
    simp only [descend] at h
    split at h
    · exact ih h
    split at h
    · exact ih h
    split at h
    · cases h
    split at h
    · split at h <;> cases h
    · exact ih h
    · split at h
      · cases h
        assumption
      · cases h
    · split at h
      · cases h
        assumption
      · cases h

theorem follow_found {t : FileTree} {followLast : Bool} {links : Nat} {start loc : Location}
    {parts : List Text} {node : FileNode}
    (h : t.follow followLast links start parts = .ok (.found loc node)) : t.at? loc = some node := by
  induction links generalizing start parts with
  | zero =>
    rw [follow] at h
    split at h <;> cases h
    exact descend_found ‹_›
  | succ n ih =>
    rw [follow] at h
    split at h
    · cases h
      exact descend_found ‹_›
    · cases h
    · exact ih h

/-- What a name leads to is at the location that it leads to. -/
theorem at?_of_find? {t : FileTree} {p : PathName} {loc : Location} {node : FileNode}
    (h : t.find? p = .ok (some (loc, node))) : t.at? loc = some node := by
  rw [find?_eq_found_iff, lookup] at h
  split at h
  · cases h
  · exact follow_found h

/-! ## Trees that show the same -/

/-- Two trees that show the same everywhere, whatever the order of the entries. -/
structure Agree (t t' : FileTree) : Prop where
  here : t'.here = t.here
  outline : ∀ loc, (t'.at? loc).map outline = (t.at? loc).map outline

/-- A tree agrees with itself where only the root directory is listed in another order. -/
theorem agree_of_perm {t : FileTree} {es es' : List (Text × FileNode)} (hp : t.Proper)
    (hroot : t.root = .dir es) (h : es.Perm es') : Agree t { t with root := .dir es' } := by
  have hes : (FileNode.dir es).isProper = true := hroot ▸ hp.names
  have hnd : (es.map Prod.fst).Nodup := (areProper_iff.mp hes).1
  refine ⟨rfl, fun loc => ?_⟩
  cases loc with
  | nil => simp [at?, FileNode.at?, hroot, outline]
  | cons name rest =>
    rw [at?, at?, hroot, FileNode.at?_cons, FileNode.at?_cons, entries_dir, entries_dir,
      entryAt?_of_perm hnd h]

/-! ## Trees of the same shape -/

/-- Two trees in which a look-up sees the same everywhere. -/
structure SameShape (t t' : FileTree) : Prop where
  here : t'.here = t.here
  shape : ∀ loc, (t'.at? loc).map shape = (t.at? loc).map shape

theorem found_of_map_shape {x y : Except PathProblem Target} {loc : Location} {node : FileNode}
    (h : x.map Target.shape = y.map Target.shape) (hy : y = .ok (.found loc node)) :
    ∃ node', x = .ok (.found loc node') ∧ node'.shape = node.shape := by
  subst hy
  cases x with
  | error e => simp [Except.map] at h
  | ok target =>
    cases target with
    | vacant d n => simp [Except.map, Target.shape] at h
    | found l n =>
      simp only [Except.map, Target.shape, Except.ok.injEq, Target.found.injEq] at h
      exact ⟨n, by rw [h.1], h.2⟩

/-- Where the same is at the next location, by its shape, descents from there on stop alike if they
do so when they stay, go up and enter. -/
theorem descend_cons_congr {t t' : FileTree} {R : Stop → Stop → Prop}
    (hR : ∀ s s' : Stop, s'.shape = s.shape → R s s') {followLast : Bool} {loc : Location}
    {part : Text} {rest : List Text}
    (hstay : R (t.descend followLast loc rest) (t'.descend followLast loc rest))
    (hup : R (t.descend followLast loc.dropLast rest) (t'.descend followLast loc.dropLast rest))
    (hshape : (t'.at? (loc ++ [part])).map shape = (t.at? (loc ++ [part])).map shape)
    (hin : ∀ es, t.at? (loc ++ [part]) = some (.dir es) →
      R (t.descend followLast (loc ++ [part]) rest)
        (t'.descend followLast (loc ++ [part]) rest)) :
    R (t.descend followLast loc (part :: rest)) (t'.descend followLast loc (part :: rest)) := by
  simp only [descend]
  split
  · exact hstay
  split
  · exact hup
  split
  · exact hR _ _ rfl
  rcases cases_of_map_shape hshape with ⟨hn, hn'⟩ | ⟨node, node', hn, hn', hs⟩
  · rw [hn, hn']
    exact hR _ _ rfl
  rw [hn, hn']
  cases node with
  | dir es =>
    cases node' <;> simp only [FileNode.shape, reduceCtorEq] at hs
    exact hin es hn
  | file bytes =>
    cases node' <;> simp only [FileNode.shape, reduceCtorEq] at hs
    cases rest <;> exact hR _ _ rfl
  | link target | pipe =>
    obtain rfl := (shape_eq_self_iff rfl (by simp)).mp hs
    exact hR _ _ rfl

namespace SameShape

variable {t t' : FileTree}

theorem symm (h : SameShape t t') : SameShape t' t := ⟨h.here.symm, fun loc => (h.shape loc).symm⟩

/-- Either nothing is at a location in both trees, or the same by its shape. -/
theorem at?_cases (h : SameShape t t') (loc : Location) :
    (t.at? loc = none ∧ t'.at? loc = none) ∨
      ∃ node node', t.at? loc = some node ∧ t'.at? loc = some node' ∧
        node'.shape = node.shape := cases_of_map_shape (h.shape loc)

theorem descend_congr (h : SameShape t t') (followLast : Bool) (loc : Location)
    (parts : List Text) :
    (t'.descend followLast loc parts).shape = (t.descend followLast loc parts).shape := by
  induction parts generalizing loc with
  | nil =>
    rcases h.at?_cases loc with ⟨hn, hn'⟩ | ⟨node, node', hn, hn', hs⟩
    · simp [descend, hn, hn']
    · simp [descend, hn, hn', Stop.shape, Target.shape, hs]
  | cons part rest ih =>
    exact descend_cons_congr (R := fun s s' => s'.shape = s.shape) (fun _ _ h => h) (ih loc) (ih _)
      (h.shape _) fun _ _ => ih _

theorem follow_congr (h : SameShape t t') (followLast : Bool) (links : Nat) (loc : Location)
    (parts : List Text) :
    (t'.follow followLast links loc parts).map Target.shape =
      (t.follow followLast links loc parts).map Target.shape := by
  induction links generalizing loc parts with
  | zero =>
    have hd := h.descend_congr followLast loc parts
    rw [follow, follow]
    cases hs : t.descend followLast loc parts <;> cases hs' : t'.descend followLast loc parts <;>
      simp_all [Stop.shape, Except.map]
  | succ n ih =>
    have hd := h.descend_congr followLast loc parts
    rw [follow, follow]
    cases hs : t.descend followLast loc parts <;> cases hs' : t'.descend followLast loc parts <;>
      simp_all [Stop.shape, Except.map]

theorem lookup_congr (h : SameShape t t') (p : PathName) (followLast : Bool) :
    (t'.lookup p followLast).map Target.shape = (t.lookup p followLast).map Target.shape := by
  have hs : t'.startOf p = t.startOf p := by rw [startOf, startOf, h.here]
  rw [lookup, lookup, hs]
  split
  · rfl
  · exact h.follow_congr ..

/-- A name leads to nothing in both trees, or to the same place. -/
theorem find?_cases (h : SameShape t t') (p : PathName) :
    (t'.find? p = t.find? p ∧ ∀ x, t.find? p ≠ .ok (some x)) ∨
      ∃ loc node node', t.find? p = .ok (some (loc, node)) ∧
        t'.find? p = .ok (some (loc, node')) ∧ node'.shape = node.shape := by
  have hl := h.lookup_congr p true
  rw [find?, find?]
  cases hx : t.lookup p true with
  | error e =>
    rw [hx] at hl
    cases hx' : t'.lookup p true <;> simp_all [Except.map]
  | ok target =>
    cases target with
    | found loc node =>
      obtain ⟨node', hx', hs⟩ := found_of_map_shape hl hx
      exact .inr ⟨loc, node, node', rfl, by rw [hx'], hs⟩
    | vacant dir name =>
      rw [hx] at hl
      cases hx' : t'.lookup p true with
      | error e => simp_all [Except.map]
      | ok target => cases target <;> simp_all [Except.map, Target.shape]

/-- A name leads to the same place in both trees. -/
theorem find?_congr (h : SameShape t t') {p : PathName} {loc : Location} {node : FileNode}
    (hf : t.find? p = .ok (some (loc, node))) :
    ∃ node', t'.find? p = .ok (some (loc, node')) ∧ node'.shape = node.shape := by
  rcases h.find?_cases p with ⟨-, hno⟩ | ⟨l, n, node', hf', hfound, hs⟩
  · exact absurd hf (hno _)
  · rw [hf] at hf'
    cases hf'
    exact ⟨node', hfound, hs⟩

/-- A name that leads to a directory leads to the same one. -/
theorem find?_dir (h : SameShape t t') {p : PathName} {loc : Location}
    {es : List (Text × FileNode)} (hf : t.find? p = .ok (some (loc, .dir es))) :
    ∃ es', t'.find? p = .ok (some (loc, .dir es')) := by
  obtain ⟨node', hf', hs⟩ := h.find?_congr hf
  cases node' <;> simp only [FileNode.shape, reduceCtorEq] at hs
  exact ⟨_, hf'⟩

/-- What has a property by its shape has it in both trees. -/
theorem isThere_congr (h : SameShape t t') (p : PathName) {property : FileNode → Bool}
    (hp : ∀ node : FileNode, property node.shape = property node) :
    t'.isThere p property = t.isThere p property := by
  rw [isThere, isThere]
  rcases h.find?_cases p with ⟨heq, -⟩ | ⟨loc, node, node', hf, hf', hs⟩
  · rw [heq]
  · have hnode : property node' = property node := by rw [← hp, hs, hp]
    rw [hf, hf']
    exact congrArg Except.ok hnode

theorem leadsToDir_of_sameShape (h : SameShape t t') {dir : Location} {name : Text}
    (hd : t.leadsToDir dir name = true) : t'.leadsToDir dir name = true := by
  obtain ⟨loc, node, hf, hn⟩ := leadsToDir_iff.mp hd
  obtain ⟨node', hf', hs⟩ := found_of_map_shape (h.follow_congr ..) hf
  refine leadsToDir_iff.mpr ⟨loc, node', hf', ?_⟩
  rw [← isDir_shape, hs, isDir_shape, hn]

/-- Whether an entry leads to a directory is the same in both trees. -/
theorem leadsToDir_congr (h : SameShape t t') (dir : Location) (name : Text) :
    t'.leadsToDir dir name = t.leadsToDir dir name :=
  Bool.eq_iff_iff.mpr ⟨h.symm.leadsToDir_of_sameShape, h.leadsToDir_of_sameShape⟩

end SameShape

/-! ## Look-ups in trees that show the same -/

namespace Agree

variable {t t' : FileTree}

theorem sameShape (h : Agree t t') : SameShape t t' :=
  ⟨h.here, fun loc => map_shape_of_map_outline (h.outline loc)⟩

/-- A name leads to the same place in both trees. -/
theorem find?_congr (h : Agree t t') {p : PathName} {loc : Location} {node : FileNode}
    (hf : t.find? p = .ok (some (loc, node))) :
    ∃ node', t'.find? p = .ok (some (loc, node')) ∧ node'.outline = node.outline := by
  obtain ⟨node', hf', -⟩ := h.sameShape.find?_congr hf
  have ho := h.outline loc
  rw [at?_of_find? hf, at?_of_find? hf'] at ho
  exact ⟨node', hf', Option.some.inj ho⟩

end Agree
end FileTree
end EnvAudit
