import EnvAudit.Proofs.SegmentLists
import EnvAudit.Proofs.Walk

/-!
# Shapes of globs

A glob is slashes around segments (`ofText?_shape`): one in front binds it to the top, one behind
to directories, and a single segment without one in front is looked for at every depth. What each
shape leaves out is said part by part: some part, the first part, or one of the directories that a
path leads through. `glob_shapes` puts the two together for the shapes of globs that hold one name or
one ending.
-/
namespace EnvAudit.Glob

/-! ## Texts that stand for themselves -/

/-- Whether a character stands for itself in a glob. A closing brace or bracket does, for it closes
nothing. -/
def standsForItself (c : Char) : Bool := !(['/', '\\', '{', '*', '?', '['].contains c)

/-- Whether a text can stand in a glob as a name: it is not empty, and every character stands for
itself. -/
structure IsLiteral (t : Text) : Prop where
  ne_nil : t ≠ []
  chars : ∀ c ∈ t, standsForItself c = true

/-- The pieces that match one text. -/
def literalPieces (t : Text) : List Piece := t.map fun c => .one (.single c)

section

variable {t : Text}

theorem IsLiteral.not_mem (ht : IsLiteral t) {c : Char} (hc : standsForItself c = false) : c ∉ t := by
  intro hm
  rw [ht.chars c hm] at hc
  cases hc

theorem piecesFrom_literal (ht : ∀ c ∈ t, standsForItself c = true) {fuel : Nat}
    (hfuel : t.length ≤ fuel) : piecesFrom fuel t = literalPieces t := by
  induction t generalizing fuel with
  | nil => cases fuel <;> rfl
  | cons c t ih =>
    cases fuel with
    | zero => simp at hfuel
    | succ fuel =>
      rw [List.forall_mem_cons] at ht
      have hc : c ≠ '*' ∧ c ≠ '?' ∧ c ≠ '[' := by
        refine ⟨?_, ?_, ?_⟩ <;> (rintro rfl; exact absurd ht.1 (by decide))
      rw [piecesFrom, ih ht.2 (by simpa using hfuel)]
      · rfl
      · exact fun h => hc.1 h
      · exact fun h => hc.2.1 h
      · exact fun h => hc.2.2 h

theorem matchPieces_literal {u : Text} : matchPieces (literalPieces t) u = true ↔ u = t := by
  induction t generalizing u with
  | nil => simp [literalPieces, matchPieces]
  | cons c t ih =>
    cases u with
    | nil => simp [literalPieces, matchPieces]
    | cons d u =>
      unfold literalPieces at ih ⊢
      simp [matchPieces, ih]

/-- A star in front of a text matches what ends in it. -/
theorem matchPieces_star_literal {u : Text} :
    matchPieces (.star :: literalPieces t) u = true ↔ t <:+ u := by
  rw [matchPieces, anyTail_iff]
  constructor
  · rintro ⟨front, back, rfl, h⟩
    rw [matchPieces_literal.mp h]
    exact List.suffix_append front t
  · rintro ⟨front, rfl⟩
    exact ⟨front, t, rfl, matchPieces_literal.mpr rfl⟩

theorem Segment.ofText_literal (ht : IsLiteral t) : Segment.ofText t = .name (literalPieces t) := by
  have hstars : t ≠ ['*', '*'] := by
    rintro rfl
    exact ht.not_mem (by decide : standsForItself '*' = false) List.mem_cons_self
  rw [Segment.ofText, if_neg hstars, pieces, piecesFrom_literal ht.chars (Nat.le_refl _)]

theorem Segment.ofText_star_literal (ht : IsLiteral t) :
    Segment.ofText ('*' :: t) = .name (.star :: literalPieces t) := by
  have hstars : '*' :: t ≠ ['*', '*'] := by
    intro h
    have hmem : '*' ∈ t := by simp [(List.cons.inj h).2]
    exact ht.not_mem (by decide) hmem
  rw [Segment.ofText, if_neg hstars, pieces, List.length_cons, piecesFrom,
    piecesFrom_literal ht.chars (Nat.le_refl _)]

end

/-! ## Slashes at the ends -/

/-- A slash where there is one. -/
def slashIf (there : Bool) : Text := if there then ['/'] else []

/-- Whether a text is not empty and has no slash at its ends. -/
structure IsBare (t : Text) : Prop where
  ne_nil : t ≠ []
  head : ∀ c ∈ t.head?, c ≠ '/'
  last : ∀ c ∈ t.getLast?, c ≠ '/'

theorem dropWhile_slashes {t : Text} (h : ∀ c ∈ t.head?, c ≠ '/') (there : Bool) :
    (slashIf there ++ t).dropWhile (· == '/') = t := by
  have hkeep : t.dropWhile (· == '/') = t := by
    cases t with
    | nil => rfl
    | cons c t => exact List.dropWhile_cons_of_neg (by simpa using h c rfl)
  cases there with
  | false => exact hkeep
  | true => exact (List.dropWhile_cons_of_pos rfl).trans hkeep

namespace IsBare

variable {t : Text}

theorem head?_append (ht : IsBare t) (u : Text) : (t ++ u).head? = t.head? := by
  rw [List.head?_append, List.head?_eq_some_head ht.ne_nil, Option.some_or]

theorem head?_slashed_iff (ht : IsBare t) (front back : Bool) :
    (slashIf front ++ t ++ slashIf back).head? = some '/' ↔ front = true := by
  cases front with
  | true => simp [slashIf]
  | false =>
    rw [show slashIf false = [] from rfl, List.nil_append, ht.head?_append]
    exact iff_of_false (fun h => ht.head '/' h rfl) (by decide)

theorem getLast?_slashed_iff (ht : IsBare t) (front back : Bool) :
    (slashIf front ++ t ++ slashIf back).getLast? = some '/' ↔ back = true := by
  cases back with
  | true => simp [slashIf]
  | false =>
    have hlast := List.getLast?_eq_some_getLast ht.ne_nil
    rw [show slashIf false = [] from rfl, List.append_nil, List.getLast?_append, hlast,
      Option.some_or, ← hlast]
    exact iff_of_false (fun h => ht.last '/' h rfl) (by decide)

theorem slashed_ne (ht : IsBare t) (front back : Bool) :
    slashIf front ++ t ++ slashIf back ≠ ['/'] := by
  obtain ⟨c, u, rfl⟩ := List.exists_cons_of_ne_nil ht.ne_nil
  have hc := ht.head c rfl
  cases front <;> simp [slashIf, hc]

/-- The slashes at the two ends are taken off. -/
theorem stripSlashes_slashed (ht : IsBare t) (front back : Bool) :
    Exclusion.stripSlashes (slashIf front ++ t ++ slashIf back) = t := by
  have hfront : ∀ c ∈ (t ++ slashIf back).head?, c ≠ '/' := by
    rw [ht.head?_append]
    exact ht.head
  have hback : ∀ c ∈ t.reverse.head?, c ≠ '/' := by
    rw [List.head?_reverse]
    exact ht.last
  have hslash : (slashIf back).reverse = slashIf back := by cases back <;> rfl
  unfold Exclusion.stripSlashes
  rw [List.append_assoc, dropWhile_slashes hfront, List.reverse_append, hslash,
    dropWhile_slashes hback, List.reverse_reverse]

end IsBare

/-! ## What a glob is read as -/

/-- Whether texts can be the segments of a glob: there is one, and none is empty or holds a slash. -/
structure AreSegments (segments : List Text) : Prop where
  ne_nil : segments ≠ []
  each : ∀ s ∈ segments, s ≠ [] ∧ '/' ∉ s

theorem isBare_join {segments : List Text} (h : AreSegments segments) :
    IsBare (Text.join ['/'] segments) := by
  obtain ⟨hne, hall⟩ := h
  induction segments with
  | nil => exact absurd rfl hne
  | cons p ps ih =>
    rw [List.forall_mem_cons] at hall
    obtain ⟨⟨hp, hslash⟩, hall⟩ := hall
    have hhead : ∀ c ∈ p.head?, c ≠ '/' := by
      rintro c hc rfl
      exact hslash (List.mem_of_mem_head? hc)
    by_cases hps : ps = []
    · subst hps
      rw [show Text.join ['/'] [p] = p by simp [Text.join, List.intercalate]]
      refine ⟨hp, hhead, ?_⟩
      rintro c hc rfl
      exact hslash (List.mem_of_mem_getLast? hc)
    · have hrest := ih hps hall
      have hlast := List.getLast?_eq_some_getLast hrest.ne_nil
      rw [Text.join_cons_of_ne_nil _ _ hps]
      refine ⟨by simp, ?_, ?_⟩
      · rwa [List.append_assoc, List.head?_append, List.head?_eq_some_head hp, Option.some_or,
          ← List.head?_eq_some_head hp]
      · rw [List.getLast?_append, hlast, Option.some_or, ← hlast]
        exact hrest.last

/-- **A glob is read as its segments.** A slash in front and one behind are no part of them; the
first keeps a single segment at the top, and the second keeps the glob to directories. -/
theorem ofText?_shape {segments : List Text} (h : AreSegments segments) (anchored dirOnly : Bool) :
    Exclusion.ofText? (slashIf anchored ++ Text.join ['/'] segments ++ slashIf dirOnly) =
      some ⟨if segments.length = 1 ∧ anchored = false then
          .anyDepth :: segments.map Segment.ofText
        else segments.map Segment.ofText, dirOnly⟩ := by
  have hbare := isBare_join h
  have hsplit : Text.splitOn '/' (Text.join ['/'] segments) = segments :=
    Text.splitOn_join h.ne_nil fun s hs => (h.each s hs).2
  have hempty : (Text.join ['/'] segments).isEmpty = false := by simpa using hbare.ne_nil
  unfold Exclusion.ofText?
  simp only [hbare.stripSlashes_slashed, hbare.head?_slashed_iff, hbare.getLast?_slashed_iff, hempty,
    hsplit, bne_iff_ne.mpr (hbare.slashed_ne anchored dirOnly), List.length_map]
  cases anchored <;> simp

theorem replaceChar_of_not_mem {old : Char} {new t : Text} (h : old ∉ t) :
    Text.replaceChar old new t = t := by
  unfold Text.replaceChar
  induction t with
  | nil => rfl
  | cons c t ih =>
    simp only [List.mem_cons, not_or] at h
    rw [List.flatMap_cons, if_neg (Ne.symm h.1), ih h.2]
    rfl

theorem braceGroup?_of_not_mem {t : Text} (h : '{' ∉ t) : braceGroup? t = none := by
  induction t with
  | nil => rfl
  | cons c t ih =>
    simp only [List.mem_cons, not_or] at h
    unfold braceGroup?
    rw [if_neg (fun hc => h.1 hc.1.symm), ih h.2]
    rfl

/-- A glob without alternatives and without backslashes is one exclusion at most. -/
theorem exclusionsOf_of_not_mem {glob : Text} (hslash : '\\' ∉ glob) (hbrace : '{' ∉ glob) :
    exclusionsOf glob = (Exclusion.ofText? glob).toList := by
  unfold exclusionsOf expandBraces
  simp only [replaceChar_of_not_mem hslash, braceGroup?_of_not_mem hbrace]
  cases h : Exclusion.ofText? glob <;> simp [h]

/-- A path under one glob: its parts under the exclusion that the glob is read as. -/
theorem excludesPath_of_ofText? {glob : Text} {e : Exclusion} (h : Exclusion.ofText? glob = some e)
    (hslash : '\\' ∉ glob) (hbrace : '{' ∉ glob) {parts : List Text} (hne : parts ≠ [])
    (hparts : ∀ p ∈ parts, '/' ∉ p) (isDir : Bool) :
    excludesPath [glob] (Text.join ['/'] parts) isDir = e.excludes parts isDir := by
  rw [excludesPath_join hne hparts]
  simp [excludesParts, exclusionsOf_of_not_mem hslash hbrace, h]

/-! ## What segments match -/

section

variable {g : List Piece} {parts : List Text}

theorem matchSegments_last : matchSegments [.anyDepth, .name g] parts = true ↔
    ∃ front p, parts = front ++ [p] ∧ matchPieces g p = true := by
  rw [matchSegments_anyDepth]
  constructor
  · rintro ⟨front, back, rfl, h⟩
    obtain ⟨p, back, rfl, hp, hback⟩ := matchSegments_name.mp h
    rw [matchSegments, List.isEmpty_iff] at hback
    exact ⟨front, p, by rw [hback], hp⟩
  · rintro ⟨front, p, rfl, hp⟩
    exact ⟨front, [p], rfl, matchSegments_name.mpr ⟨p, [], rfl, hp, rfl⟩⟩

theorem matchSegments_only : matchSegments [.name g] parts = true ↔
    ∃ p, parts = [p] ∧ matchPieces g p = true := by
  rw [matchSegments_name]
  constructor
  · rintro ⟨p, back, rfl, hp, hback⟩
    rw [matchSegments, List.isEmpty_iff] at hback
    exact ⟨p, by rw [hback], hp⟩
  · rintro ⟨p, rfl, hp⟩
    exact ⟨p, [], rfl, hp, rfl⟩

end

/-! ## What an exclusion leaves out -/

/-- The names of the directories that a path leads through, itself among them if it is one. -/
def dirsOf (parts : List Text) (isDir : Bool) : List Text := if isDir then parts else parts.dropLast

section

variable {g : List Piece} {parts : List Text} {isDir : Bool}

/-- A path is left out as a file, or one of the directories that it leads through is. -/
theorem excludes_iff {e : Exclusion} : e.excludes parts isDir = true ↔
    (isDir = false ∧ e.dirOnly = false ∧ matchSegments e.fileSegments parts = true) ∨
      ∃ dir, dir ≠ [] ∧ dir <+: dirsOf parts isDir ∧ matchSegments e.segments dir = true := by
  have hdirs : e.excludes parts isDir =
      ((!isDir && !e.dirOnly && matchSegments e.fileSegments parts) ||
        (List.range (dirsOf parts isDir).length).any fun i =>
          matchSegments e.segments ((dirsOf parts isDir).take (i + 1))) := rfl
  rw [hdirs, Bool.or_eq_true]
  refine or_congr (by simp [and_assoc]) ?_
  simp only [List.any_eq_true, List.mem_range]
  constructor
  · rintro ⟨i, hi, hm⟩
    refine ⟨_, ?_, List.take_prefix (i + 1) _, hm⟩
    rw [ne_eq, List.take_eq_nil_iff]
    rintro (h | h)
    · omega
    · simp [h] at hi
  · rintro ⟨dir, hne, hprefix, hm⟩
    have hpos := List.length_pos_iff.mpr hne
    have hle := hprefix.length_le
    refine ⟨dir.length - 1, by omega, ?_⟩
    rwa [Nat.sub_add_cancel hpos, ← List.prefix_iff_eq_take.mp hprefix]

theorem exists_dir_last {dirs : List Text} :
    (∃ dir, dir ≠ [] ∧ dir <+: dirs ∧ matchSegments [.anyDepth, .name g] dir = true) ↔
      ∃ p ∈ dirs, matchPieces g p = true := by
  simp only [matchSegments_last]
  constructor
  · rintro ⟨_, -, ⟨back, rfl⟩, front, p, rfl, hp⟩
    exact ⟨p, by simp, hp⟩
  · rintro ⟨p, hmem, hp⟩
    obtain ⟨front, back, rfl⟩ := List.append_of_mem hmem
    exact ⟨front ++ [p], by simp, ⟨back, by simp⟩, front, p, rfl, hp⟩

theorem exists_dir_only {dirs : List Text} :
    (∃ dir, dir ≠ [] ∧ dir <+: dirs ∧ matchSegments [.name g] dir = true) ↔
      ∃ p ∈ dirs.head?, matchPieces g p = true := by
  simp only [matchSegments_only]
  constructor
  · rintro ⟨_, -, ⟨back, rfl⟩, p, rfl, hp⟩
    exact ⟨p, rfl, hp⟩
  · rintro ⟨p, hhead, hp⟩
    obtain ⟨back, rfl⟩ := List.head?_eq_some_iff.mp hhead
    exact ⟨[p], by simp, ⟨back, rfl⟩, p, rfl, hp⟩

theorem exists_mem_dropLast_or {M : Text → Prop} {parts : List Text} :
    (∃ front p, parts = front ++ [p] ∧ M p) ∨ (∃ p ∈ parts.dropLast, M p) ↔ ∃ p ∈ parts, M p := by
  constructor
  · rintro (⟨front, p, rfl, hp⟩ | ⟨p, hmem, hp⟩)
    · exact ⟨p, by simp, hp⟩
    · exact ⟨p, List.dropLast_subset _ hmem, hp⟩
  · rintro ⟨p, hmem, hp⟩
    have hne := List.ne_nil_of_mem hmem
    rw [← List.dropLast_concat_getLast hne, List.mem_append, List.mem_singleton] at hmem
    rcases hmem with hmem | rfl
    · exact .inr ⟨p, hmem, hp⟩
    · exact .inl ⟨_, _, (List.dropLast_concat_getLast hne).symm, hp⟩

/-- A name at every depth. -/
theorem excludes_anywhere :
    Exclusion.excludes ⟨[.anyDepth, .name g], false⟩ parts isDir = true ↔
      ∃ p ∈ parts, matchPieces g p = true := by
  have hfile : Exclusion.fileSegments ⟨[.anyDepth, .name g], false⟩ = [.anyDepth, .name g] := rfl
  rw [excludes_iff, exists_dir_last, hfile, matchSegments_last]
  cases isDir with
  | true => simp [dirsOf]
  | false => simpa [dirsOf] using exists_mem_dropLast_or

/-- A directory at every depth. -/
theorem excludes_directory :
    Exclusion.excludes ⟨[.anyDepth, .name g], true⟩ parts isDir = true ↔
      ∃ p ∈ dirsOf parts isDir, matchPieces g p = true := by
  rw [excludes_iff, exists_dir_last]
  simp

/-- Two stars at the end leave out what is below the directories that are matched in front of
them, and the directories themselves. -/
theorem excludes_below (ps : List Segment) (hps : matchSegments ps [] = false) (dirOnly : Bool) :
    Exclusion.excludes ⟨ps ++ [.anyDepth], dirOnly⟩ parts isDir = true ↔
      ∃ dir, dir ≠ [] ∧ dir <+: dirsOf parts isDir ∧ matchSegments ps dir = true := by
  have hne : ∀ dir, matchSegments ps dir = true → dir ≠ [] := by
    rintro _ hm rfl
    simp [hps] at hm
  rw [excludes_iff, matchSegments_fileSegments]
  constructor
  · rintro (⟨rfl, -, front, back, rfl, hm, hback⟩ | ⟨_, -, hprefix, hm⟩)
    · refine ⟨front, hne front hm, ?_, hm⟩
      rw [dirsOf, if_neg (by decide), List.dropLast_append_of_ne_nil hback]
      exact List.prefix_append _ _
    · obtain ⟨front, back, rfl, hm, -⟩ := matchSegments_append.mp hm
      exact ⟨front, hne front hm, (List.prefix_append _ _).trans hprefix, hm⟩
  · rintro ⟨dir, hdir, hprefix, hm⟩
    refine .inr ⟨dir, hdir, hprefix, matchSegments_append.mpr ?_⟩
    exact ⟨dir, [], (List.append_nil dir).symm, hm, matchSegments_anyDepth_nil⟩

/-- All that is in a directory at every depth. -/
theorem excludes_inDirectory :
    Exclusion.excludes ⟨[.anyDepth, .name g, .anyDepth], false⟩ parts isDir = true ↔
      ∃ p ∈ dirsOf parts isDir, matchPieces g p = true := by
  exact (excludes_below [.anyDepth, .name g] rfl false).trans exists_dir_last

/-- A name at the top. -/
theorem excludes_top :
    Exclusion.excludes ⟨[.name g], false⟩ parts isDir = true ↔
      ∃ p ∈ parts.head?, matchPieces g p = true := by
  have hfile : Exclusion.fileSegments ⟨[.name g], false⟩ = [.name g] := rfl
  rw [excludes_iff, exists_dir_only, hfile, matchSegments_only]
  cases isDir with
  | true => simp [dirsOf]
  | false =>
    rcases parts with _ | ⟨p, _ | ⟨q, parts⟩⟩ <;> simp [dirsOf]

/-- A directory at the top. -/
theorem excludes_topDirectory :
    Exclusion.excludes ⟨[.name g], true⟩ parts isDir = true ↔
      ∃ p ∈ (dirsOf parts isDir).head?, matchPieces g p = true := by
  rw [excludes_iff, exists_dir_only]
  simp

/-- All that is in a directory at the top. -/
theorem excludes_inTopDirectory :
    Exclusion.excludes ⟨[.name g, .anyDepth], false⟩ parts isDir = true ↔
      ∃ p ∈ (dirsOf parts isDir).head?, matchPieces g p = true := by
  exact (excludes_below [.name g] rfl false).trans exists_dir_only

end

/-! ## Shapes with one name -/

/-- Whether a text can be a segment of a glob that has no alternatives. -/
structure IsSegment (s : Text) : Prop where
  ne_nil : s ≠ []
  noSlash : '/' ∉ s
  noBackslash : '\\' ∉ s
  noBrace : '{' ∉ s

theorem isSegment_stars : IsSegment ['*', '*'] := ⟨by decide, by decide, by decide, by decide⟩

section

variable {n : Text} (hn : IsLiteral n)
include hn

theorem IsLiteral.isSegment : IsSegment n :=
  ⟨hn.ne_nil, hn.not_mem (by decide), hn.not_mem (by decide), hn.not_mem (by decide)⟩

theorem IsLiteral.isSegment_star : IsSegment ('*' :: n) :=
  ⟨by simp, by simp [hn.isSegment.noSlash], by simp [hn.isSegment.noBackslash],
    by simp [hn.isSegment.noBrace]⟩

end

section

variable {parts : List Text} (hne : parts ≠ []) (hparts : ∀ p ∈ parts, '/' ∉ p)
include hne hparts

/-- A path under slashes around segments. -/
theorem excludesPath_shape (segments : List Text) (anchored dirOnly : Bool) {glob : Text}
    (hglob : glob = slashIf anchored ++ Text.join ['/'] segments ++ slashIf dirOnly)
    (hsome : segments ≠ []) (h : ∀ s ∈ segments, IsSegment s) (isDir : Bool) :
    excludesPath [glob] (Text.join ['/'] parts) isDir =
      Exclusion.excludes ⟨if segments.length = 1 ∧ anchored = false then
          .anyDepth :: segments.map Segment.ofText
        else segments.map Segment.ofText, dirOnly⟩ parts isDir := by
  have hfree : ∀ c : Char, c ≠ '/' → (∀ s ∈ segments, c ∉ s) → c ∉ glob := by
    intro c hc hs hmem
    have hslash : ∀ b, c ∉ slashIf b := by
      intro b
      cases b <;> simp [slashIf, hc]
    simp only [hglob, List.mem_append, hslash, false_or, or_false] at hmem
    rcases Text.mem_join hmem with h | ⟨p, hp, hcp⟩
    · exact hc h
    · exact hs p hp hcp
  have hread := ofText?_shape ⟨hsome, fun s hs => ⟨(h s hs).ne_nil, (h s hs).noSlash⟩⟩ anchored
    dirOnly
  rw [← hglob] at hread
  exact excludesPath_of_ofText? hread (hfree '\\' (by decide) fun s hs => (h s hs).noBackslash)
    (hfree '{' (by decide) fun s hs => (h s hs).noBrace) hne hparts isDir

variable {n : Text} (hn : IsLiteral n) (isDir : Bool)
include hn

theorem excludesPath_anywhere :
    excludesPath [n] (Text.join ['/'] parts) isDir = true ↔ n ∈ parts := by
  rw [excludesPath_shape hne hparts [n] false false (by simp [slashIf, Text.join, List.intercalate])
    (by simp) (by simp [hn.isSegment])]
  simp only [List.map_cons, List.map_nil, Segment.ofText_literal hn]
  refine excludes_anywhere.trans ?_
  simp [matchPieces_literal]

theorem excludesPath_directory :
    excludesPath [n ++ ['/']] (Text.join ['/'] parts) isDir = true ↔ n ∈ dirsOf parts isDir := by
  rw [excludesPath_shape hne hparts [n] false true (by simp [slashIf, Text.join, List.intercalate])
    (by simp) (by simp [hn.isSegment])]
  simp only [List.map_cons, List.map_nil, Segment.ofText_literal hn]
  refine excludes_directory.trans ?_
  simp [matchPieces_literal]

theorem excludesPath_inDirectory :
    excludesPath ["**/".toList ++ n ++ "/**".toList] (Text.join ['/'] parts) isDir = true ↔
      n ∈ dirsOf parts isDir := by
  rw [excludesPath_shape hne hparts [['*', '*'], n, ['*', '*']] false false
    (by simp [slashIf, Text.join, List.intercalate]) (by simp)
    (by simp [hn.isSegment, isSegment_stars])]
  simp only [List.map_cons, List.map_nil, Segment.ofText_literal hn]
  refine excludes_inDirectory.trans ?_
  simp [matchPieces_literal]

theorem excludesPath_top :
    excludesPath ['/' :: n] (Text.join ['/'] parts) isDir = true ↔ parts.head? = some n := by
  rw [excludesPath_shape hne hparts [n] true false (by simp [slashIf, Text.join, List.intercalate])
    (by simp) (by simp [hn.isSegment])]
  simp only [List.map_cons, List.map_nil, Segment.ofText_literal hn]
  refine excludes_top.trans ?_
  simp [matchPieces_literal]

theorem excludesPath_topDirectory :
    excludesPath ['/' :: n ++ ['/']] (Text.join ['/'] parts) isDir = true ↔
      (dirsOf parts isDir).head? = some n := by
  rw [excludesPath_shape hne hparts [n] true true (by simp [slashIf, Text.join, List.intercalate])
    (by simp) (by simp [hn.isSegment])]
  simp only [List.map_cons, List.map_nil, Segment.ofText_literal hn]
  refine excludes_topDirectory.trans ?_
  simp [matchPieces_literal]

theorem excludesPath_inTopDirectory :
    excludesPath [n ++ "/**".toList] (Text.join ['/'] parts) isDir = true ↔
      (dirsOf parts isDir).head? = some n := by
  rw [excludesPath_shape hne hparts [n, ['*', '*']] false false
    (by simp [slashIf, Text.join, List.intercalate]) (by simp)
    (by simp [hn.isSegment, isSegment_stars])]
  simp only [List.map_cons, List.map_nil, Segment.ofText_literal hn]
  refine excludes_inTopDirectory.trans ?_
  simp [matchPieces_literal]

theorem excludesPath_ending :
    excludesPath ['*' :: n] (Text.join ['/'] parts) isDir = true ↔ ∃ p ∈ parts, n <:+ p := by
  rw [excludesPath_shape hne hparts ['*' :: n] false false
    (by simp [slashIf, Text.join, List.intercalate]) (by simp) (by simp [hn.isSegment_star])]
  simp only [List.map_cons, List.map_nil, Segment.ofText_star_literal hn]
  refine excludes_anywhere.trans ?_
  simp only [matchPieces_star_literal]

theorem excludesPath_endingBelow :
    excludesPath ["**/*".toList ++ n] (Text.join ['/'] parts) isDir = true ↔
      ∃ p ∈ parts, n <:+ p := by
  rw [excludesPath_shape hne hparts [['*', '*'], '*' :: n] false false
    (by simp [slashIf, Text.join, List.intercalate]) (by simp)
    (by simp [hn.isSegment_star, isSegment_stars])]
  simp only [List.map_cons, List.map_nil, Segment.ofText_star_literal hn]
  refine excludes_anywhere.trans ?_
  simp only [matchPieces_star_literal]

end

theorem head?_dropLast_eq_some {parts : List Text} {n : Text} :
    parts.dropLast.head? = some n ↔ parts.head? = some n ∧ 2 ≤ parts.length := by
  rcases parts with _ | ⟨p, _ | ⟨q, parts⟩⟩ <;> simp

/-- **What each shape of a glob leaves out.** Of a path with the parts `parts`: a bare name leaves
out what has it as some part; a slash behind it, or two stars on both sides, what has it as a
directory on the way; a slash in front, what has it as its first part; that and a slash behind it,
or two stars below it, what has it as its first directory; a star in front of an ending, what has a
part with that ending, and two stars above the star change nothing. -/
theorem glob_shapes {parts : List Text} (hne : parts ≠ []) (hparts : ∀ p ∈ parts, '/' ∉ p)
    {n s : Text} (hn : IsLiteral n) (hs : IsLiteral s) :
    let excluded (glob : Text) (isDir : Bool) : Bool :=
      excludesPath [glob] (Text.join ['/'] parts) isDir
    (∀ isDir, excluded n isDir = true ↔ n ∈ parts) ∧
      ((∀ isDir, excluded (n ++ ['/']) isDir = excluded ("**/".toList ++ n ++ "/**".toList) isDir) ∧
        (excluded (n ++ ['/']) true = true ↔ n ∈ parts) ∧
        (excluded (n ++ ['/']) false = true ↔ n ∈ parts.dropLast)) ∧
      ((∀ isDir, excluded (n ++ "/**".toList) isDir = excluded ('/' :: n ++ ['/']) isDir) ∧
        (excluded (n ++ "/**".toList) true = true ↔ parts.head? = some n) ∧
        (excluded (n ++ "/**".toList) false = true ↔
          parts.head? = some n ∧ 2 ≤ parts.length)) ∧
      (∀ isDir, excluded ('/' :: n) isDir = true ↔ parts.head? = some n) ∧
      (∀ isDir, excluded ('*' :: s) isDir = excluded ("**/*".toList ++ s) isDir ∧
        (excluded ('*' :: s) isDir = true ↔ ∃ p ∈ parts, s <:+ p)) := by
  intro excluded
  refine ⟨excludesPath_anywhere hne hparts hn, ⟨?_, ?_, ?_⟩, ⟨?_, ?_, ?_⟩,
    excludesPath_top hne hparts hn, ?_⟩
  · intro isDir
    rw [Bool.eq_iff_iff]
    exact (excludesPath_directory hne hparts hn isDir).trans
      (excludesPath_inDirectory hne hparts hn isDir).symm
  · exact excludesPath_directory hne hparts hn true
  · exact excludesPath_directory hne hparts hn false
  · intro isDir
    rw [Bool.eq_iff_iff]
    exact (excludesPath_inTopDirectory hne hparts hn isDir).trans
      (excludesPath_topDirectory hne hparts hn isDir).symm
  · exact excludesPath_inTopDirectory hne hparts hn true
  · exact (excludesPath_inTopDirectory hne hparts hn false).trans head?_dropLast_eq_some
  · intro isDir
    have hending := excludesPath_ending hne hparts hs isDir
    refine ⟨?_, hending⟩
    rw [Bool.eq_iff_iff]
    exact hending.trans (excludesPath_endingBelow hne hparts hs isDir).symm

/-- A file below a directory: the directory's name leaves it out with a slash behind it, but does
not at the top. -/
theorem glob_shapes_below :
    excludesPath ["cache/".toList] "src/cache/x.js".toList false = true ∧
      excludesPath ["/cache".toList] "src/cache/x.js".toList false = false ∧
      excludesPath ["*.js".toList] "src/cache/x.js".toList false = true := by
  have hne : ["src".toList, "cache".toList, "x.js".toList] ≠ [] := by decide
  have hname : IsLiteral "cache".toList := ⟨by decide, List.all_eq_true.mp (by decide)⟩
  have hending : IsLiteral ".js".toList := ⟨by decide, List.all_eq_true.mp (by decide)⟩
  have hshapes := glob_shapes hne (by decide) hname hending
  obtain ⟨-, ⟨-, -, hfile⟩, -, htop, hends⟩ := hshapes
  refine ⟨hfile.mpr (by decide), ?_, (hends false).2.mpr ⟨"x.js".toList, by decide, by decide⟩⟩
  exact Bool.eq_false_iff.mpr fun h => absurd ((htop false).mp h) (by decide)

end EnvAudit.Glob
