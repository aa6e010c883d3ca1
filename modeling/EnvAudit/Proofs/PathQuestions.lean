import EnvAudit.Proofs.ScanResult

/-!
# Questions about paths

What version control answers when it is asked for a path. Nothing is known of the program but what is
documented of it (`Program.Lists`): it takes the path as a pattern and prints the names in the index
that fit it. Which names fit is documented in so far as the path itself and all below it do, and for a
path that says nothing else they alone. Main statement: `program_lists`, version control over the
repositories of a tree is such a program.
-/
namespace EnvAudit

namespace Git

open DirectoryScan

/-! ## What is printed -/

/-- Whether something of a text shows. -/
def IsVisible (t : Text) : Prop := ∃ c ∈ t, isBlank c = false

instance (t : Text) : Decidable (IsVisible t) :=
  decidable_of_iff (t.any fun c => !isBlank c) (by simp [IsVisible])

theorem isVisible_join_iff {pieces : List Text} :
    IsVisible (Text.join ['\n'] pieces) ↔ ∃ p ∈ pieces, IsVisible p := by
  constructor
  · rintro ⟨c, hc, hb⟩
    rcases Text.mem_join hc with rfl | ⟨p, hp, hc⟩
    · exact absurd hb (by decide)
    · exact ⟨p, hp, c, hc, hb⟩
  · rintro ⟨p, hp, c, hc, hb⟩
    exact ⟨c, Text.mem_join_of_mem hp hc, hb⟩

theorem isYes_printed_iff {t : Text} : (Reply.printed t).isYes = true ↔ IsVisible t := by
  have hstrip : (Reply.printed t).isYes = true ↔ ¬ Text.strip t = [] := by simp [Reply.isYes]
  rw [hstrip, Text.strip_eq_nil_iff]
  simp [IsVisible]

/-- Whether a reply lists names, each on a line of its own as it is shown. Without any the program may
as well fail. -/
inductive Reply.Prints (shown : Text → Text) : List Text → Reply → Prop
  | printed (names : List Text) :
      Reply.Prints shown names (.printed (Text.join ['\n'] (names.map shown)))
  | failed : Reply.Prints shown [] .failed

/-- A reply is a yes exactly if one of its names is not blank. -/
theorem Reply.Prints.isYes_iff {shown : Text → Text} {names : List Text} {reply : Reply}
    (h : Reply.Prints shown names reply) :
    reply.isYes = true ↔ ∃ name ∈ names, IsVisible (shown name) := by
  cases h with
  | printed =>
    rw [isYes_printed_iff, isVisible_join_iff]
    constructor
    · rintro ⟨p, hp, hv⟩
      obtain ⟨name, hname, rfl⟩ := List.mem_map.mp hp
      exact ⟨name, hname, hv⟩
    · rintro ⟨name, hname, hv⟩
      exact ⟨_, List.mem_map_of_mem hname, hv⟩
  | failed => simp [Reply.isYes]

/-! ## What is documented -/

/-- The name in the index of what is at a path below a directory. -/
def nameIn (dir rel : RelPath) : Text := Text.join ['/'] (dir ++ rel)

/-- Whether a path can be that of a file. -/
def IsFilePath (rel : RelPath) : Prop := rel ≠ [] ∧ ∀ part ∈ rel, isEntryName part = true

/-- Whether a path starts with a colon, behind which stands how to read the rest. -/
def HasMagic (rel : RelPath) : Prop := (shownPath rel).head? = some ':'

instance (rel : RelPath) : Decidable (HasMagic rel) :=
  inferInstanceAs (Decidable ((shownPath rel).head? = some ':'))

/-- The characters that mean something else in a pattern. -/
def wildcardChars : List Char := ['*', '?', '[', '\\']

/-- Whether a path has no wildcards. -/
def IsPlain (rel : RelPath) : Prop := ∀ part ∈ rel, ∀ c ∈ wildcardChars, c ∉ part

instance (rel : RelPath) : Decidable (IsPlain rel) :=
  decidable_of_iff (rel.all fun part => wildcardChars.all fun c => !part.contains c)
    (by simp [IsPlain])

/-- What is documented of version control, as it is asked under a name that leads into a repository.
Its index has names from the top of the repository on; `dir` is the directory below the top from which
paths are taken, and `fits` says which names a path brings up. -/
structure Program.Lists (git : Program) (root : PathName) (dir : RelPath) (index : List Text)
    (fits : RelPath → Text → Prop) (shown : Text → Text) : Prop where
  inside : git.inRepository root = true
  /-- The names in the index that fit a path are printed. If the path itself is among them, it may
  stand for all others. -/
  listing : ∀ rel, IsFilePath rel → ∃ names,
    Reply.Prints shown names (git.listing root (shownPath rel)) ∧
      (∀ name ∈ names, name ∈ index ∧ fits rel name) ∧
      ∀ name ∈ index, fits rel name → name ∈ names ∨ nameIn dir rel ∈ names
  /-- A name in the directory is shown as it is seen from there, perhaps in quotes. -/
  visible : ∀ rest, IsVisible rest → IsVisible (shown (dirText dir ++ rest))
  own : ∀ rel, IsFilePath rel → ¬ HasMagic rel → fits rel (nameIn dir rel)
  /-- A path stands for all below it. -/
  below : ∀ rel rest, IsFilePath rel → ¬ HasMagic rel → fits rel (nameIn dir rel ++ '/' :: rest)
  /-- Without wildcards it stands for nothing else. -/
  plain : ∀ rel name, IsFilePath rel → ¬ HasMagic rel → IsPlain rel → fits rel name →
    name = nameIn dir rel ∨ (nameIn dir rel ++ ['/']) <+: name

theorem nameIn_eq {dir rel : RelPath} (h : rel ≠ []) :
    nameIn dir rel = dirText dir ++ Text.join ['/'] rel := by
  induction dir with
  | nil => rfl
  | cons part dir ih =>
    rw [nameIn] at ih
    rw [nameIn, List.cons_append, Text.join_cons_of_ne_nil _ _ (by simp [h]), ih]
    simp [dirText]

/-! ## Patterns without wildcards -/

@[simp] theorem foldByte_false (b : UInt8) : foldByte false b = b := rfl

theorem wildcardsFrom_of_plain {bytes : List UInt8} (h : ∀ c ∈ wildcardChars, byteOf c ∉ bytes)
    {fuel : Nat} (hf : bytes.length ≤ fuel) :
    wildcardsFrom false fuel bytes = bytes.map fun b => .one (.exactly b) := by
  induction bytes generalizing fuel with
  | nil => cases fuel <;> rfl
  | cons b bytes ih =>
    cases fuel with
    | zero => simp at hf
    | succ fuel =>
      have hb : ∀ c ∈ wildcardChars, b ≠ byteOf c := fun c hc he => h c hc (by simp [he])
      have hrest := ih (fun c hc hm => h c hc (List.mem_cons_of_mem _ hm)) (Nat.le_of_succ_le_succ hf)
      unfold wildcardsFrom
      rw [if_neg (hb '*' (by decide)), if_neg (hb '?' (by decide)), if_neg (hb '\\' (by decide)),
        if_neg (hb '[' (by decide)), hrest]
      rfl

theorem matchWildcards_exactly {bytes other : List UInt8} :
    matchWildcards false (bytes.map fun b => .one (.exactly b)) other = true ↔ other = bytes := by
  induction bytes generalizing other with
  | nil => cases other <;> simp [matchWildcards]
  | cons b bytes ih =>
    cases other with
    | nil => simp [matchWildcards]
    | cons c other =>
      simp only [List.map_cons, matchWildcards, BytePattern.accepts, foldByte_false,
        Bool.and_eq_true, beq_iff_eq, ih, List.cons.injEq, eq_comm (a := b)]

/-- A pattern without wildcards matches its own text alone. -/
theorem matchWildcards_of_plain {t : Text} (h : ∀ c ∈ wildcardChars, c ∉ t) {other : Text} :
    matchWildcards false (wildcards false (Utf8.encode t)) (Utf8.encode other) = true ↔ other = t := by
  have hascii : ∀ c ∈ wildcardChars, c.toNat < 128 := by simp [wildcardChars]
  have hbytes : ∀ c ∈ wildcardChars, byteOf c ∉ Utf8.encode t := fun c hc hm =>
    h c hc (Utf8.mem_of_mem_encode (hascii c hc) hm)
  rw [wildcards, wildcardsFrom_of_plain hbytes (Nat.le_refl _), matchWildcards_exactly]
  exact ⟨Utf8.encode_injective, fun he => by rw [he]⟩

theorem not_mem_join_of_isPlain {rel : RelPath} (h : IsPlain rel) :
    ∀ c ∈ wildcardChars, c ∉ Text.join ['/'] rel := by
  intro c hc hm
  rcases Text.mem_join hm with rfl | ⟨part, hp, hm⟩
  · revert hc
    decide
  · exact h part hp c hc hm

/-- A path without magic accepts the names in its directory that are the path, or below it, or that it
matches with its wildcards. -/
theorem accepts_iff {dir rel : RelPath} {name : Text} (hrel : rel ≠ []) :
    (Pathspec.mk dir rel false {}).accepts name = true ↔
      ∃ rest, name = dirText dir ++ rest ∧
        (rest = Text.join ['/'] rel ∨ (Text.join ['/'] rel ++ ['/']) <+: rest ∨
          matchWildcards false (wildcards false (Utf8.encode (Text.join ['/'] rel)))
            (Utf8.encode rest) = true) := by
  have hslash : [byteOf '/'] = Utf8.encode ['/'] := by decide
  have hne : rel.isEmpty = false := List.isEmpty_eq_false_iff.mpr hrel
  have hfold : List.map (foldByte false) = id := funext fun bytes => List.map_id' bytes
  simp only [Pathspec.accepts, hne, hfold, id, hslash, Bool.false_or, Bool.not_false, Bool.true_and,
    Bool.or_eq_true, Bool.and_eq_true, beq_iff_eq, List.isPrefixOf_iff_prefix, ← Utf8.encode_append,
    Utf8.encode_prefix_iff, Bool.false_eq_true, if_false, List.append_nil]
  constructor
  · rintro ⟨⟨rest, rfl⟩, h⟩
    rw [Utf8.encode_append, List.drop_left, Utf8.encode_prefix_iff] at h
    refine ⟨rest, rfl, ?_⟩
    rcases h with (h | h) | h
    · exact .inl (Utf8.encode_injective h)
    · exact .inr (.inl h)
    · exact .inr (.inr h)
  · rintro ⟨rest, rfl, h⟩
    rw [Utf8.encode_append, List.drop_left, Utf8.encode_prefix_iff]
    refine ⟨⟨rest, rfl⟩, ?_⟩
    rcases h with rfl | h | h
    · exact .inl (.inl rfl)
    · exact .inl (.inr h)
    · exact .inr h

/-! ## Names as they are shown -/

theorem splitOn_dirText {dir : RelPath} (h : ∀ part ∈ dir, '/' ∉ part) (rest : Text) :
    Text.splitOn '/' (dirText dir ++ rest) = dir ++ Text.splitOn '/' rest := by
  induction dir with
  | nil => rfl
  | cons part dir ih =>
    have hsplit := Text.splitOn_append_sep (h part List.mem_cons_self) (dirText dir ++ rest)
    rw [ih fun p hp => h p (List.mem_cons_of_mem _ hp)] at hsplit
    simpa [dirText] using hsplit

theorem seenFrom_append (dir : List Text) {names : List Text} (h : names ≠ []) :
    seenFrom dir (dir ++ names) = names := by
  induction dir with
  | nil => cases names <;> rfl
  | cons part dir ih =>
    rw [List.cons_append, seenFrom, if_pos ⟨rfl, by simp [h]⟩, ih]

theorem isVisible_printedName {t : Text} (h : IsVisible t) : IsVisible (printedName t) := by
  rw [printedName]
  split
  · exact h
  · exact ⟨'"', by simp, by decide⟩

/-- A name in a directory is shown without the directory. -/
theorem shownName_eq {dir : RelPath} (h : ∀ part ∈ dir, '/' ∉ part) (rest : Text) :
    shownName dir (dirText dir ++ rest) = printedName rest := by
  rw [shownName, splitOn_dirText h, seenFrom_append dir (Text.splitOn_ne_nil _ _), Text.join_splitOn]

/-! ## Version control over a tree -/

/-- Names of entries are taken as they are. -/
theorem foldlM_step {fixed parts : List Text} {magic : Magic}
    (hnames : ∀ part ∈ parts, isEntryName part = true) (done : List Text) (slash : Bool)
    (hslash : parts = [] → slash = false) :
    parts.foldlM Pathspec.step ⟨fixed, done, slash, magic⟩ =
      some ⟨fixed, done ++ parts, false, magic⟩ := by
  induction parts generalizing done slash with
  | nil =>
    rw [hslash rfl, List.append_nil]
    rfl
  | cons part parts ih =>
    obtain ⟨hempty, hdot, hdots, -⟩ := isEntryName_iff.mp (hnames part List.mem_cons_self)
    have hstep : Pathspec.step ⟨fixed, done, slash, magic⟩ part =
        some ⟨fixed, done ++ [part], false, magic⟩ := by
      rw [Pathspec.step, if_neg (by simp [hempty, hdot]), if_neg hdots]
    rw [List.foldlM_cons, hstep, Option.bind_eq_bind, Option.bind_some,
      ih (fun p hp => hnames p (List.mem_cons_of_mem _ hp)) _ _ fun _ => rfl]
    simp

/-- What is shown of the path of a file is cut into its parts. -/
theorem splitOn_shownPath {rel : RelPath} (h : IsFilePath rel) :
    Text.splitOn '/' (shownPath rel) = rel := by
  obtain ⟨hne, hnames⟩ := h
  obtain ⟨part, rest, rfl⟩ := List.exists_cons_of_ne_nil hne
  exact Text.splitOn_join hne fun p hp => (isEntryName_iff.mp (hnames p hp)).2.2.2.1

/-- What is shown of the path of a file is not empty and starts with no slash. -/
theorem exists_shownPath_eq {rel : RelPath} (h : IsFilePath rel) :
    ∃ c rest, shownPath rel = c :: rest ∧ c ≠ '/' := by
  have hparts := splitOn_shownPath h
  have hempty : [] ∉ rel := fun hm => (isEntryName_iff.mp (h.2 _ hm)).1 rfl
  cases hshown : shownPath rel with
  | nil =>
    rw [hshown, Text.splitOn_nil] at hparts
    exact absurd (hparts ▸ List.mem_singleton_self _) hempty
  | cons c rest =>
    refine ⟨c, rest, rfl, fun he => ?_⟩
    rw [hshown, he, Text.splitOn_cons_self] at hparts
    exact hempty (hparts ▸ List.mem_cons_self)

/-- The path of a file is read as that path, if it has no magic. -/
theorem pathspecIn?_shownPath {t : FileTree} {r : Repository} {dir : Location} {rel : RelPath}
    (h : IsFilePath rel) (hmagic : ¬ HasMagic rel) :
    pathspecIn? t r dir (shownPath rel) = some ⟨baseOf r dir, rel, false, {}⟩ := by
  have hparts := splitOn_shownPath h
  obtain ⟨c, rest, hshown, hslash⟩ := exists_shownPath_eq h
  have hcolon : c ≠ ':' := fun he => hmagic (by rw [HasMagic, hshown, he]; rfl)
  have hread : Magic.ofText? (c :: rest) = some ({}, c :: rest) := by
    unfold Magic.ofText?
    split <;> simp_all
  have hhere : (PathName.ofText (c :: rest)).anchorage = .here := by
    change PathName.anchorageOf (c :: rest) = .here
    unfold PathName.anchorageOf
    split <;> simp_all
  rw [hshown] at hparts ⊢
  simp only [pathspecIn?, hread, Option.bind_eq_bind, Option.bind_some, hhere, Pathspec.ofText?,
    hparts, Bool.false_eq_true, if_false]
  exact foldlM_step h.2 [] true fun he => absurd he h.1

variable {t : FileTree} {r : Repository} {dir : Location} {root : PathName}

/-- Whether a name is among those that a path brings up. -/
def BringsUp (t : FileTree) (r : Repository) (dir : Location) (rel : RelPath) (name : Text) : Prop :=
  ∃ spec, pathspecIn? t r dir (shownPath rel) = some spec ∧
    spec.selects (baseOf r dir) name = true

theorem mem_namesFor_iff {rel : RelPath} {name : Text} :
    name ∈ namesFor t r dir (shownPath rel) ↔ name ∈ r.index ∧ BringsUp t r dir rel name := by
  rw [namesFor, BringsUp]
  cases pathspecIn? t r dir (shownPath rel) <;> simp

theorem bringsUp_iff {rel : RelPath} (h : IsFilePath rel) (hmagic : ¬ HasMagic rel) {name : Text} :
    BringsUp t r dir rel name ↔
      (Pathspec.mk (baseOf r dir) rel false {}).accepts name = true := by
  rw [BringsUp, pathspecIn?_shownPath h hmagic]
  simp [Pathspec.selects]

/-- The directory of a question is one of the tree. -/
theorem isEntryName_of_mem_workingDir (ht : t.Proper) :
    ∀ part ∈ workingDir t root, isEntryName part = true := by
  rw [workingDir]
  split
  · rename_i loc es h
    exact ht.isEntryName_of_at? (FileTree.at?_of_find? h)
  · obtain ⟨node, hat, -⟩ := (Option.any_eq_true _ _).mp ht.hereIsDir
    exact ht.isEntryName_of_at? hat

theorem slash_not_mem_baseOf (ht : t.Proper) :
    ∀ part ∈ baseOf r (workingDir t root), '/' ∉ part := by
  intro part hp
  rw [baseOf] at hp
  split at hp
  · cases hp
  · exact (isEntryName_iff.mp (isEntryName_of_mem_workingDir ht part (List.mem_of_mem_drop hp))).2.2.2.1

/-- **Version control over the repositories of a tree does what is documented.** -/
theorem program_lists (ht : t.Proper) (hr : repositoryOf? t (workingDir t root) = some r) :
    (program t true).Lists root (baseOf r (workingDir t root)) r.index
      (BringsUp t r (workingDir t root)) (shownName (baseOf r (workingDir t root))) where
  inside := by simp [program, hr]
  listing rel _ := by
    refine ⟨namesFor t r (workingDir t root) (shownPath rel), ?_,
      fun name hname => mem_namesFor_iff.mp hname,
      fun name hname hfits => .inl (mem_namesFor_iff.mpr ⟨hname, hfits⟩)⟩
    change Reply.Prints _ _ (listingIn t (workingDir t root) (shownPath rel))
    rw [listingIn, hr]
    dsimp only
    split
    · rename_i hempty
      rw [List.isEmpty_iff.mp hempty]
      exact .failed
    · exact .printed _
  visible rest hrest := by
    rw [shownName_eq (slash_not_mem_baseOf ht)]
    exact isVisible_printedName hrest
  own rel h hmagic := by
    rw [bringsUp_iff h hmagic, accepts_iff h.1, nameIn_eq h.1]
    exact ⟨_, rfl, .inl rfl⟩
  below rel rest h hmagic := by
    rw [bringsUp_iff h hmagic, accepts_iff h.1, nameIn_eq h.1, List.append_assoc]
    exact ⟨_, rfl, .inr (.inl ⟨rest, by simp⟩)⟩
  plain rel name h hmagic hplain hfits := by
    rw [bringsUp_iff h hmagic, accepts_iff h.1] at hfits
    obtain ⟨rest, rfl, rfl | ⟨tail, rfl⟩ | hmatch⟩ := hfits
    · exact .inl (nameIn_eq h.1).symm
    · exact .inr ⟨tail, by rw [nameIn_eq h.1]; simp⟩
    · rw [matchWildcards_of_plain (not_mem_join_of_isPlain hplain)] at hmatch
      rw [hmatch]
      exact .inl (nameIn_eq h.1).symm

end Git
end EnvAudit
