import EnvAudit.Proofs.RealPath
import EnvAudit.Proofs.ScanResult
import EnvAudit.Proofs.WellFormedText

/-!
# The texts of files

Which files have a text. `Reaches` says where a path name leads, through links if need be, without
looking it up, and a look-up finds just that (`follow_eq_found_iff`). So a text is read exactly if
a name leads to a regular file within the limit that holds well-formed UTF-8 and no null byte, and
the text has the bytes of that file (`readNamed_exact`). Everything else that a name can lead to, or
that keeps it from leading anywhere, has no text. Only names that no file is asked for under are a
failure: those that cannot be encoded, and those with a null character (`not_always_read`).
-/
namespace EnvAudit.FileTree

variable {t : FileTree} {n links : Nat} {loc stop : Location} {parts : List Text} {node : FileNode}

/-! ## Where names lead -/

/-- Whether parts lead from a location to a node, by so many links. All that is on the way is there:
directories, and links, which their targets take the place of. -/
inductive Reaches (t : FileTree) : Nat → Location → List Text → Location → FileNode → Prop
  | here {loc : Location} {node : FileNode} (hat : t.at? loc = some node) :
      Reaches t 0 loc [] loc node
  | stay {n : Nat} {loc stop : Location} {part : Text} {rest : List Text} {node : FileNode}
      (h : part = [] ∨ part = ['.']) (hrest : Reaches t n loc rest stop node) :
      Reaches t n loc (part :: rest) stop node
  | up {n : Nat} {loc stop : Location} {rest : List Text} {node : FileNode}
      (hrest : Reaches t n loc.dropLast rest stop node) :
      Reaches t n loc (['.', '.'] :: rest) stop node
  | enter {n : Nat} {loc stop : Location} {part : Text} {rest : List Text} {node : FileNode}
      {es : List (Text × FileNode)} (hname : IsName part) (hshort : isNameTooLong part = false)
      (hat : t.at? (loc ++ [part]) = some (.dir es))
      (hrest : Reaches t n (loc ++ [part]) rest stop node) :
      Reaches t n loc (part :: rest) stop node
  /-- What is no directory and no link is the end. -/
  | last {loc : Location} {part : Text} {node : FileNode} (hname : IsName part)
      (hshort : isNameTooLong part = false) (hat : t.at? (loc ++ [part]) = some node)
      (hdir : node.isDir = false) (hlink : ∀ target, node ≠ .link target) :
      Reaches t 0 loc [part] (loc ++ [part]) node
  | link {n : Nat} {loc stop : Location} {part target : Text} {rest : List Text} {node : FileNode}
      (hname : IsName part) (hshort : isNameTooLong part = false)
      (hat : t.at? (loc ++ [part]) = some (.link target))
      (hrest : Reaches t n (linkStart loc target) (Text.splitOn '/' target ++ rest) stop node) :
      Reaches t (n + 1) loc (part :: rest) stop node

/-- Whether what a descent from a location says holds of what the parts reach: what it found is
reached without a link, and what is behind the link at which it stopped is reached by one more. -/
def Tells (t : FileTree) (loc : Location) (parts : List Text) : Stop → Prop
  | .done (.found stop node) => t.Reaches 0 loc parts stop node
  | .atLink dir target rest => ∀ n stop node,
      t.Reaches n (linkStart dir target) (Text.splitOn '/' target ++ rest) stop node →
        t.Reaches (n + 1) loc parts stop node
  | _ => True

theorem Tells.imp {loc' : Location} {parts' : List Text} {s : Stop}
    (h : ∀ n stop node, t.Reaches n loc parts stop node → t.Reaches n loc' parts' stop node)
    (hs : t.Tells loc parts s) : t.Tells loc' parts' s := by
  cases s with
  | done target =>
    cases target with
    | found stop node => exact h _ _ _ hs
    | vacant dir name => trivial
  | problem _ => trivial
  | atLink dir target rest => exact fun n stop node hrest => h _ _ _ (hs n stop node hrest)

theorem tells_descend (loc : Location) (parts : List Text) :
    t.Tells loc parts (t.descend true loc parts) := by
  induction parts generalizing loc with
  | nil =>
    rw [descend]
    split
    · exact .here ‹_›
    · trivial
  | cons part rest ih =>
    rw [descend]
    split
    · rename_i hstay
      exact (ih loc).imp fun _ _ _ => .stay hstay
    rename_i hstay
    split
    · rename_i hup
      subst hup
      exact (ih loc.dropLast).imp fun _ _ _ => .up
    rename_i hup
    have hname : IsName part := ⟨hstay, hup⟩
    split
    · trivial
    rename_i hlong
    have hshort : isNameTooLong part = false := Bool.eq_false_iff.mpr hlong
    cases hat : t.at? (loc ++ [part]) with
    | none => cases rest <;> trivial
    | some node =>
      cases node with
      | dir es => exact (ih _).imp fun _ _ _ => .enter hname hshort hat
      | link target =>
        rw [Bool.not_true, Bool.and_false]
        exact fun _ _ _ => .link hname hshort hat
      | _ =>
        cases rest with
        | nil => exact .last hname hshort hat rfl (by simp)
        | cons _ _ => trivial

theorem exists_reaches_of_follow (h : t.follow true links loc parts = .ok (.found stop node)) :
    ∃ n ≤ links, t.Reaches n loc parts stop node := by
  induction links generalizing loc parts with
  | zero =>
    have htells := t.tells_descend loc parts
    rw [follow] at h
    split at h <;> cases h
    rename_i hd
    rw [hd] at htells
    exact ⟨0, Nat.le_refl 0, htells⟩
  | succ links ih =>
    have htells := t.tells_descend loc parts
    rw [follow] at h
    split at h
    · rename_i hd
      cases h
      rw [hd] at htells
      exact ⟨0, Nat.zero_le _, htells⟩
    · cases h
    · rename_i hd
      rw [hd] at htells
      obtain ⟨n, hn, hreaches⟩ := ih h
      exact ⟨n + 1, Nat.succ_le_succ hn, htells n stop node hreaches⟩

theorem follow_congr {loc' : Location} {parts' : List Text}
    (h : t.descend true loc parts = t.descend true loc' parts') :
    t.follow true links loc parts = t.follow true links loc' parts' := by
  rw [follow, follow, h]

theorem Reaches.follow_eq (h : t.Reaches n loc parts stop node) (hn : n ≤ links) :
    t.follow true links loc parts = .ok (.found stop node) := by
  induction h generalizing links with
  | here hat => rw [follow, descend, hat]
  | stay h _ ih =>
    rw [← ih hn]
    exact follow_congr (by rw [descend, if_pos h])
  | up _ ih =>
    rw [← ih hn]
    exact follow_congr (by simp [descend])
  | enter hname hshort hat _ ih =>
    rw [← ih hn]
    exact follow_congr (by simp [descend, hname.1, hname.2, hshort, hat])
  | @last loc part node hname hshort hat hdir hlink =>
    have hd : t.descend true loc [part] = .done (.found (loc ++ [part]) node) := by
      simp only [descend, if_neg hname.1, if_neg hname.2, hshort, hat]
      cases node with
      | dir es => cases hdir
      | link target => exact absurd rfl (hlink target)
      | file _ | pipe => rfl
    rw [follow, hd]
  | @link n loc stop part target rest node hname hshort hat _ ih =>
    have hd : t.descend true loc (part :: rest) = .atLink loc target rest := by
      simp [descend, hname.1, hname.2, hshort, hat]
    cases links with
    | zero => omega
    | succ links =>
      rw [follow, hd]
      exact ih (Nat.le_of_succ_le_succ hn)

/-- **A look-up finds what parts reach by no more links than it may follow.** -/
theorem follow_eq_found_iff :
    t.follow true links loc parts = .ok (.found stop node) ↔
      ∃ n ≤ links, t.Reaches n loc parts stop node := by
  constructor
  · exact exists_reaches_of_follow
  · rintro ⟨n, hn, h⟩
    exact h.follow_eq hn

/-! ## Which files have a text -/

/-- Whether a path name leads to a regular file with these bytes, through links if need be, but no
more than are followed. A name with a null character leads nowhere. -/
def LeadsToFile (t : FileTree) (p : PathName) (bytes : List UInt8) : Prop :=
  IsNullFree p ∧ ∃ n ≤ maxLinks, ∃ loc, t.Reaches n (t.startOf p) p.parts loc (.file bytes)

variable {p : PathName} {bytes : List UInt8} {maxSize : Int}

theorem exists_find?_file_iff :
    (∃ loc, t.find? p = .ok (some (loc, .file bytes))) ↔ t.LeadsToFile p bytes := by
  constructor
  · rintro ⟨loc, h⟩
    have hnull := isNullFree_of_find? h
    rw [find?_eq_found_iff, lookup, isNullFree_iff.mp hnull] at h
    obtain ⟨n, hn, hreaches⟩ := follow_eq_found_iff.mp h
    exact ⟨hnull, n, hn, loc, hreaches⟩
  · rintro ⟨hnull, n, hn, loc, hreaches⟩
    refine ⟨loc, ?_⟩
    rw [find?_eq_found_iff, lookup, isNullFree_iff.mp hnull]
    exact hreaches.follow_eq hn

theorem bytesOf?_eq_some_iff : t.bytesOf? p = .ok (some bytes) ↔ t.LeadsToFile p bytes := by
  rw [← exists_find?_file_iff, bytesOf?]
  split
  · rename_i loc bytes' hf
    simp [hf]
  · rename_i x hne hf
    refine iff_of_false (by simp) ?_
    rintro ⟨loc, h⟩
    rw [hf] at h
    cases h
    exact hne _ _ rfl
  · rename_i e hf
    simp [hf]

/-- A name leads to one file at most. -/
theorem LeadsToFile.unique {bytes' : List UInt8} (h : t.LeadsToFile p bytes)
    (h' : t.LeadsToFile p bytes') : bytes = bytes' := by
  rw [← bytesOf?_eq_some_iff] at h h'
  rw [h] at h'
  cases h'
  rfl

theorem textWithin_eq_some_iff {text : Text} :
    textWithin maxSize bytes = some text ↔
      bytes.length ≤ maxSize ∧ 0 ∉ bytes ∧ Utf8.encode text = bytes := by
  rw [textWithin]
  by_cases hsize : maxSize < bytes.length
  · rw [if_pos hsize]
    exact iff_of_false (by simp) fun ⟨hle, _⟩ => by omega
  rw [if_neg hsize]
  by_cases hzero : bytes.contains 0 = true
  · rw [if_pos hzero]
    exact iff_of_false (by simp) fun ⟨_, hno, _⟩ => hno (List.contains_iff_mem.mp hzero)
  rw [if_neg hzero, Utf8.decode?_eq_some_iff]
  have hno : 0 ∉ bytes := fun hm => hzero (List.contains_iff_mem.mpr hm)
  exact ⟨fun h => ⟨by omega, hno, h⟩, fun ⟨_, _, h⟩ => h⟩

/-! ## Names as they are handed over -/

/-- A path name without null characters is written without null bytes. -/
theorem zero_not_mem_encode {text : Text} (h : IsNullFree (.ofText text)) :
    0 ∉ Utf8.encode text := by
  intro hzero
  have hm := Utf8.mem_of_mem_encode (show ('\x00').toNat < 128 by decide) hzero
  rw [← Text.join_splitOn '/' text] at hm
  rcases Text.mem_join hm with hc | ⟨part, hp, hc⟩
  · cases hc
  have hpart : PathName.isPart part = true := by
    rw [PathName.isPart, Bool.and_eq_true, bne_iff_ne, bne_iff_ne]
    refine ⟨List.ne_nil_of_mem hc, fun he => ?_⟩
    rw [he] at hc
    exact absurd hc (by decide)
  exact h part (List.mem_filter.mpr ⟨hp, hpart⟩) hc

/-- Whether a regular file with these bytes is there under a name that is handed over: the name is a
text, no longer than names may be, and leads to the file. -/
def NamesFile (t : FileTree) (name : RawName) (bytes : List UInt8) : Prop :=
  ∃ text, name.bytes? = some (Utf8.encode text) ∧ (PathName.ofText text).isTooLong = false ∧
    t.LeadsToFile (.ofText text) bytes

variable {name : RawName}

/-- A name is that of one file at most. -/
theorem NamesFile.unique {bytes' : List UInt8} (h : t.NamesFile name bytes)
    (h' : t.NamesFile name bytes') : bytes = bytes' := by
  obtain ⟨text, hname, -, hfile⟩ := h
  obtain ⟨text', hname', -, hfile'⟩ := h'
  obtain rfl := Utf8.encode_injective (Option.some.inj (hname.symm.trans hname'))
  exact hfile.unique hfile'

theorem readNamed_eq_error_iff {fault : NameFault} :
    t.readNamed name maxSize = .error fault ↔ name.lookedUp = .error fault := by
  rw [readNamed]
  cases name.lookedUp <;> simp [Except.map]

theorem textAt_encode_eq_some_iff {path text : Text} :
    t.textAt maxSize (Utf8.encode path) = some text ↔
      (PathName.ofText path).isTooLong = false ∧ ∃ bytes, t.LeadsToFile (.ofText path) bytes ∧
        textWithin maxSize bytes = some text := by
  simp only [textAt, PathName.ofBytes?_encode, ← bytesOf?_eq_some_iff]
  cases (PathName.ofText path).isTooLong with
  | true => simp
  | false =>
    cases t.bytesOf? (.ofText path) with
    | error _ => simp
    | ok found => cases found <;> simp

/-- A text is that of a small file without null bytes, and has its bytes. -/
theorem readNamed_eq_some_iff {text : Text} :
    t.readNamed name maxSize = .ok (some text) ↔
      ∃ bytes, t.NamesFile name bytes ∧ bytes.length ≤ maxSize ∧ 0 ∉ bytes ∧
        Utf8.encode text = bytes := by
  constructor
  · intro h
    obtain ⟨nameBytes, hname, h⟩ : ∃ nameBytes, name.lookedUp = .ok nameBytes ∧
        t.textAt maxSize nameBytes = some text := by
      rw [readNamed] at h
      cases hname : name.lookedUp with
      | error fault => simp [hname, Except.map] at h
      | ok nameBytes => exact ⟨nameBytes, rfl, by simpa [hname, Except.map] using h⟩
    cases hpath : Utf8.decode? nameBytes with
    | none => simp [textAt, PathName.ofBytes?, hpath] at h
    | some path =>
      obtain rfl := Utf8.decode?_eq_some_iff.mp hpath
      obtain ⟨hshort, bytes, hfile, htext⟩ := textAt_encode_eq_some_iff.mp h
      exact ⟨bytes, ⟨path, (RawName.lookedUp_eq_ok_iff.mp hname).1, hshort, hfile⟩,
        textWithin_eq_some_iff.mp htext⟩
  · rintro ⟨bytes, ⟨path, hname, hshort, hfile⟩, htext⟩
    rw [readNamed, RawName.lookedUp_eq_ok_iff.mpr ⟨hname, zero_not_mem_encode hfile.1⟩]
    exact congrArg Except.ok
      (textAt_encode_eq_some_iff.mpr ⟨hshort, bytes, hfile, textWithin_eq_some_iff.mpr htext⟩)

/-- A name that is a text without null characters, and no longer than names may be, is read as the path
name is that it writes. -/
theorem readNamed_ofText {path : Text} (hnull : IsNullFree (.ofText path))
    (hshort : (PathName.ofText path).isTooLong = false) :
    ∃ content, t.readNamed (.ofText path) maxSize = .ok content ∧
      t.readText (.ofText path) maxSize = .ok content := by
  obtain ⟨content, hread⟩ := t.exists_readText hnull maxSize
  have hname := RawName.lookedUp_eq_ok_iff.mpr ⟨RawName.bytes?_ofText path, zero_not_mem_encode hnull⟩
  have htext : t.textAt maxSize (Utf8.encode path) = content := by
    simp only [textAt, PathName.ofBytes?_encode, hshort, Bool.false_eq_true, if_false]
    rw [readText] at hread
    cases hb : t.bytesOf? (.ofText path) with
    | error problem => cases problem <;> simp_all
    | ok found => cases found <;> simp_all
  rw [readNamed, hname]
  exact ⟨content, congrArg Except.ok htext, hread⟩

/-- **Exactly small well-formed texts are read, and nothing of them is lost.** Reading fails for a
name that cannot be encoded, and for one with a null character, and for no other. It gives a text
exactly if a regular file is there under the name that is within the limit, has no null byte and is
well-formed UTF-8; and then the bytes of the text are those of the file, with each carriage return,
and with a byte order mark in front if there is one. -/
theorem readNamed_exact (t : FileTree) (name : RawName) (maxSize : Int) :
    (∀ fault, t.readNamed name maxSize = .error fault ↔
        (fault = .notEncodable ∧ ∃ n, .half n ∈ name ∧ CodePoint.isEscape n = false) ∨
          (fault = .embeddedNull ∧ (∀ n, .half n ∈ name → CodePoint.isEscape n = true) ∧
            .char '\x00' ∈ name)) ∧
      ((∃ text, t.readNamed name maxSize = .ok (some text)) ↔
        ∃ bytes, t.NamesFile name bytes ∧ bytes.length ≤ maxSize ∧ 0 ∉ bytes ∧
          Utf8.IsWellFormed bytes) ∧
      ∀ text bytes, t.readNamed name maxSize = .ok (some text) → t.NamesFile name bytes →
        Utf8.encode text = bytes ∧ text.count '\r' = bytes.count 0x0D ∧
          (['\uFEFF'] <+: text ↔ [0xEF, 0xBB, 0xBF] <+: bytes) := by
  refine ⟨fun fault => readNamed_eq_error_iff.trans RawName.lookedUp_eq_error_iff, ?_, ?_⟩
  · simp only [readNamed_eq_some_iff, Utf8.isWellFormed_iff]
    constructor
    · rintro ⟨text, bytes, hfile, hsize, hzero, htext⟩
      exact ⟨bytes, hfile, hsize, hzero, text, htext⟩
    · rintro ⟨bytes, hfile, hsize, hzero, text, htext⟩
      exact ⟨text, bytes, hfile, hsize, hzero, htext⟩
  · intro text bytes hread hfile
    obtain ⟨bytes', hfile', -, -, htext⟩ := readNamed_eq_some_iff.mp hread
    obtain rfl := hfile.unique hfile'
    subst htext
    have hreturn := Utf8.count_encode (show ('\r').toNat < 128 by decide) text
    have hmark : Utf8.encode ['\uFEFF'] = [0xEF, 0xBB, 0xBF] := by decide
    refine ⟨rfl, hreturn.symm, ?_⟩
    rw [← hmark, Utf8.encode_prefix_iff]

/-- The bytes of a text with a byte order mark and a carriage return. -/
def markedBytes : List UInt8 := [0xEF, 0xBB, 0xBF, 0x61, 0x0D, 0x0A]

/-- A directory with that text, and a link to it. -/
def markedTree : FileTree where
  root := .dir [("docs".toList, .dir [("a".toList, .file markedBytes)]),
    ("b".toList, .link "docs/a".toList)]
  here := []

/-- The text is read through the link, at the limit, with its mark and its carriage return. -/
theorem readNamed_exact_marked :
    markedTree.readNamed (.ofText "b".toList) 6 = .ok (some "\uFEFFa\r\n".toList) ∧
      markedTree.NamesFile (.ofText "b".toList) markedBytes ∧
      Utf8.encode "\uFEFFa\r\n".toList = markedBytes := by
  have hdocs : markedTree.Reaches 0 [] ["docs".toList, "a".toList] ["docs".toList, "a".toList]
      (.file markedBytes) :=
    .enter ⟨by decide, by decide⟩ (by decide) rfl
      (.last ⟨by decide, by decide⟩ (by decide) rfl rfl (by simp))
  have hlink : markedTree.Reaches 1 [] ["b".toList] ["docs".toList, "a".toList]
      (.file markedBytes) :=
    .link ⟨by decide, by decide⟩ (by decide) rfl hdocs
  have hfile : markedTree.NamesFile (.ofText "b".toList) markedBytes :=
    ⟨"b".toList, RawName.bytes?_ofText _, by decide,
      isNullFree_iff.mpr (by decide), 1, by decide, _, hlink⟩
  have hread : markedTree.readNamed (.ofText "b".toList) 6 =
      .ok (some "\uFEFFa\r\n".toList) :=
    readNamed_eq_some_iff.mpr ⟨markedBytes, hfile, by decide, by decide, by decide⟩
  exact ⟨hread, hfile, ((readNamed_exact _ _ _).2.2 _ _ hread hfile).1⟩

/-- A name with a null character is not passed over, and neither is one with half of a pair. -/
theorem not_always_read :
    ¬ (∀ (t : FileTree) (text : Text) (maxSize : Int),
        ∃ content, t.readNamed (.ofText text) maxSize = .ok content) ∧
      ¬ ∀ (t : FileTree) (n : Fin 0x800) (maxSize : Int),
        ∃ content, t.readNamed [.half n] maxSize = .ok content := by
  constructor
  · intro h
    obtain ⟨content, hread⟩ := h markedTree "a\x00b".toList defaultMaxSize
    have hfails : markedTree.readNamed (.ofText "a\x00b".toList) defaultMaxSize =
        .error .embeddedNull := rfl
    cases hfails.symm.trans hread
  · intro h
    obtain ⟨content, hread⟩ := h markedTree 0 defaultMaxSize
    have hfails : markedTree.readNamed [.half 0] defaultMaxSize = .error .notEncodable := rfl
    cases hfails.symm.trans hread

end EnvAudit.FileTree
