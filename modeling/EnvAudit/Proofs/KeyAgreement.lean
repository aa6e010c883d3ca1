import EnvAudit.Proofs.AtomicExample
import EnvAudit.Proofs.CommitStatus
import EnvAudit.Proofs.ExampleReparse
import Mathlib.Data.List.Induction

/-!
# The keys of examples and of records

An environment file is read in two ways. The inventory cuts its text at line feeds only, while the
making of an example takes a carriage return for a line end as well. So the record has one key for
each line that sets one, and the example one for each piece between two line ends
(`example_keys_agree`). Where the carriage returns stand at the ends of lines, among white space,
the pieces set the keys that the lines set. A carriage return inside of a line makes the two differ
(`readers_disagree`).
-/
namespace EnvAudit

namespace Text

/-! ## Pieces -/

/-- The pieces of a text between its line feeds and carriage returns. -/
def pieces (t : Text) : List Text := (lines t).flatMap (splitOn '\r')

theorem pieces_lineFeed (t : Text) : pieces ('\n' :: t) = [] :: pieces t := by
  rw [pieces, lines, splitOn_cons_self, List.flatMap_cons]
  rfl

theorem pieces_return (t : Text) : pieces ('\r' :: t) = [] :: pieces t := by
  obtain ⟨p, ps, hs, hc⟩ := splitOn_cons_of_ne (show '\r' ≠ '\n' by decide) t
  rw [pieces, pieces, lines, lines, hs, hc, List.flatMap_cons, splitOn_cons_self]
  rfl

theorem pieces_cons_of_ne {c : Char} (hfeed : c ≠ '\n') (hreturn : c ≠ '\r') (t : Text) :
    ∃ p ps, pieces t = p :: ps ∧ pieces (c :: t) = (c :: p) :: ps := by
  obtain ⟨l, ls, hs, hc⟩ := splitOn_cons_of_ne hfeed t
  obtain ⟨p, ps, hs', hc'⟩ := splitOn_cons_of_ne hreturn l
  refine ⟨p, ps ++ ls.flatMap (splitOn '\r'), ?_, ?_⟩
  · rw [pieces, lines, hs, List.flatMap_cons, hs']
    rfl
  · rw [pieces, lines, hc, List.flatMap_cons, hc']
    rfl

/-- What is left of a text behind a character when its line ends are unified. -/
def unifyFrom (before : Char) (t : Text) : Text :=
  (List.zip (before :: t) t).filterMap fun p => unifyNewline p.1 p.2

theorem unifyFrom_cons (before c : Char) (t : Text) :
    unifyFrom before (c :: t) = (unifyNewline before c).toList ++ unifyFrom c t := by
  rw [unifyFrom, List.zip_cons_cons, List.filterMap_cons]
  cases unifyNewline before c <;> rfl

section

variable {β : Type} {f : Text → Option β}

/-- Whether two cuts of a text begin with the same piece and give the same from there on. -/
def StartAlike (f : Text → Option β) (xs ys : List Text) : Prop :=
  ∃ p ps qs, xs = p :: ps ∧ ys = p :: qs ∧ ps.filterMap f = qs.filterMap f

theorem StartAlike.filterMap_eq {xs ys : List Text} (h : StartAlike f xs ys) :
    xs.filterMap f = ys.filterMap f := by
  obtain ⟨p, ps, qs, rfl, rfl, h⟩ := h
  simp only [List.filterMap_cons, h]

/-- One character more: what follows begins alike behind whatever is no carriage return, if it does
so behind the character, and gives the same behind a carriage return. -/
theorem startAlike_lines_unifyFrom_cons {before c : Char} (hb : before ≠ '\r') {t : Text}
    (hother : c ≠ '\r' → StartAlike f (lines (unifyFrom c t)) (pieces t))
    (hreturn : (lines (unifyFrom '\r' t)).filterMap f = (pieces t).filterMap f) :
    StartAlike f (lines (unifyFrom before (c :: t))) (pieces (c :: t)) := by
  rw [unifyFrom_cons]
  by_cases hr : c = '\r'
  · subst hr
    refine ⟨[], _, _, ?_, pieces_return t, hreturn⟩
    exact splitOn_cons_self '\n' _
  by_cases hn : c = '\n'
  · subst hn
    have hkeep : unifyNewline before '\n' = some '\n' := by simp [unifyNewline, hb]
    rw [hkeep]
    refine ⟨[], _, _, ?_, pieces_lineFeed t, (hother hr).filterMap_eq⟩
    exact splitOn_cons_self '\n' _
  · have hkeep : unifyNewline before c = some c := by simp [unifyNewline, hr, hn]
    obtain ⟨p, ps, qs, hl, hp, heq⟩ := hother hr
    obtain ⟨l, ls, hs, hc⟩ := splitOn_cons_of_ne hn (unifyFrom c t)
    obtain ⟨q, qs', hs', hc'⟩ := pieces_cons_of_ne hn hr t
    rw [lines, hs] at hl
    rw [hs'] at hp
    cases hl
    cases hp
    rw [hkeep]
    exact ⟨c :: p, ps, qs, hc, hc', heq⟩

/-- Where an empty piece gives nothing, the lines of a text with unified line ends give what its
pieces give. Behind a carriage return the first piece may be one that is dropped, a line feed. -/
theorem startAlike_lines_unifyFrom (hf : f [] = none) (t : Text) :
    (∀ before, before ≠ '\r' → StartAlike f (lines (unifyFrom before t)) (pieces t)) ∧
      (lines (unifyFrom '\r' t)).filterMap f = (pieces t).filterMap f := by
  induction t with
  | nil => exact ⟨fun _ _ => ⟨[], [], [], rfl, rfl, rfl⟩, rfl⟩
  | cons c t ih =>
    obtain ⟨ihother, ihreturn⟩ := ih
    have hstep : ∀ before, before ≠ '\r' →
        StartAlike f (lines (unifyFrom before (c :: t))) (pieces (c :: t)) :=
      fun before hb => startAlike_lines_unifyFrom_cons hb (ihother c) ihreturn
    refine ⟨hstep, ?_⟩
    by_cases hn : c = '\n'
    · subst hn
      have hdrop : unifyNewline '\r' '\n' = none := rfl
      rw [unifyFrom_cons, hdrop, pieces_lineFeed, List.filterMap_cons, hf]
      exact (ihother '\n' (by decide)).filterMap_eq
    · have hsame : unifyNewline '\r' c = unifyNewline '\n' c := by simp [unifyNewline, hn]
      rw [unifyFrom_cons, hsame, ← unifyFrom_cons]
      exact (hstep '\n' (by decide)).filterMap_eq

theorem filterMap_lines_unifyNewlines (hf : f [] = none) (t : Text) :
    (lines (unifyNewlines t)).filterMap f = (pieces t).filterMap f :=
  ((startAlike_lines_unifyFrom hf t).1 '\n' (by decide)).filterMap_eq

end

end Text

namespace EnvEntry

/-! ## The key of a line -/

/-- The key that a line sets, if it sets one. -/
def keyOf? (line : Text) : Option Text := (ofLine 1 line).key

theorem key_ofLine (n : Nat) (line : Text) : (ofLine n line).key = keyOf? line := by
  rw [keyOf?]
  unfold ofLine
  split
  · rfl
  · rfl
  · split <;> rfl

theorem isVariable_ofLine (n : Nat) (line : Text) :
    (ofLine n line).isVariable = (keyOf? line).isSome := by
  rw [← key_ofLine n]
  unfold ofLine
  split
  · rfl
  · rfl
  · split <;> rfl

theorem keys_ofLines (n : Nat) (lines : List Text) :
    keys (ofLines n lines) = lines.filterMap keyOf? := by
  induction lines generalizing n with
  | nil => rfl
  | cons line lines ih =>
    rw [ofLines, keys, List.filter_cons, isVariable_ofLine, List.filterMap_cons]
    cases h : keyOf? line with
    | none => exact ih (n + 1)
    | some k =>
      rw [Option.isSome_some, if_pos rfl, List.filterMap_cons, key_ofLine, h]
      exact congrArg (k :: ·) (ih (n + 1))

/-- The keys of a text are those of its lines. -/
theorem keys_parse (content : Text) :
    keys (parse content) = (Text.lines content).filterMap keyOf? := keys_ofLines 1 _

theorem takeWhile_isKeyChar_append {back : Text} (h : ∀ c ∈ back, isBlank c = true) (t : Text) :
    (t ++ back).takeWhile isKeyChar = t.takeWhile isKeyChar := by
  have hback : back.takeWhile isKeyChar = [] := by
    cases back with
    | nil => rfl
    | cons c back =>
      have hc : isKeyChar c = false := by
        rw [Bool.eq_false_iff]
        intro hk
        have hb := h c List.mem_cons_self
        rw [isBlank_of_isKeyChar hk] at hb
        cases hb
      simp [hc]
  rw [List.takeWhile_append, hback, List.append_nil]
  split
  · rename_i hlen
    exact ((List.takeWhile_prefix _).eq_of_length hlen).symm
  · rfl

/-- An assignment sets a key if one starts the line, with an equals sign as the next character that
is not blank. -/
theorem map_fst_assignment? (line : Text) :
    (assignment? line).map (·.1) =
      (let t := Text.stripLeft line
       let key := t.takeWhile isKeyChar
       if key.head?.any isKeyStart ∧ (Text.stripLeft (t.drop key.length)).head? = some '=' then
         some key
       else none) := by
  simp only [assignment?]
  generalize (Text.stripLeft line).takeWhile isKeyChar = key
  generalize Text.stripLeft ((Text.stripLeft line).drop key.length) = rest
  split
  · rename_i c _ value
    by_cases hc : isKeyStart c = true <;> simp [hc]
  · rename_i hno
    refine (if_neg ?_).symm
    rintro ⟨hkey, hrest⟩
    obtain ⟨c, hc, -⟩ := (Option.any_eq_true _ _).mp hkey
    obtain ⟨ks, rfl⟩ := List.head?_eq_some_iff.mp hc
    obtain ⟨value, rfl⟩ := List.head?_eq_some_iff.mp hrest
    exact hno c ks value rfl rfl

/-- White space around an assignment does not change its key. -/
theorem map_fst_assignment?_pad {front back : Text} (hfront : ∀ c ∈ front, isBlank c = true)
    (hback : ∀ c ∈ back, isBlank c = true) (line : Text) :
    (assignment? (front ++ line ++ back)).map (·.1) = (assignment? line).map (·.1) := by
  obtain ⟨back', hback', hline, -⟩ := Text.exists_stripLeft_append hback line
  rw [map_fst_assignment?, map_fst_assignment?, List.append_assoc, Text.stripLeft_append hfront, hline]
  simp only [takeWhile_isKeyChar_append hback']
  rw [List.drop_append_of_le_length (List.takeWhile_prefix _).length_le]
  obtain ⟨back'', -, hrest, hnil⟩ := Text.exists_stripLeft_append hback'
    ((Text.stripLeft line).drop ((Text.stripLeft line).takeWhile isKeyChar).length)
  rw [hrest, List.head?_append]
  generalize Text.stripLeft ((Text.stripLeft line).drop _) = rest at hnil
  cases rest with
  | nil => rw [hnil rfl]; rfl
  | cons c rest => rfl

/-- White space around a line does not change its key. -/
theorem keyOf?_pad {front back : Text} (hfront : ∀ c ∈ front, isBlank c = true)
    (hback : ∀ c ∈ back, isBlank c = true) (line : Text) :
    keyOf? (front ++ line ++ back) = keyOf? line := by
  have hkey := map_fst_assignment?_pad hfront hback line
  rw [keyOf?, keyOf?, ofLine, ofLine, Text.strip_append hfront hback]
  split
  · rfl
  · rfl
  · revert hkey
    cases assignment? (front ++ line ++ back) <;> cases assignment? line <;> simp

theorem keyOf?_of_blank {line : Text} (h : ∀ c ∈ line, isBlank c = true) : keyOf? line = none := by
  have hpad := keyOf?_pad h (List.forall_mem_nil _) []
  rw [List.append_nil, List.append_nil] at hpad
  rw [hpad]
  rfl

/-! ## Carriage returns -/

/-- The pieces of white space set no key. -/
theorem filterMap_splitOn_of_blank {t : Text} (h : ∀ c ∈ t, isBlank c = true) :
    (Text.splitOn '\r' t).filterMap keyOf? = [] := by
  rw [List.filterMap_eq_nil_iff]
  intro p hp
  exact keyOf?_of_blank fun c hc => h c (Text.mem_of_mem_splitOn hp hc)

theorem filterMap_splitOn_append {back : Text} (hback : ∀ c ∈ back, isBlank c = true) {s : Text}
    (hs : '\r' ∉ s) : (Text.splitOn '\r' (s ++ back)).filterMap keyOf? = (keyOf? s).toList := by
  have hpad : ∀ b : Text, (∀ c ∈ b, isBlank c = true) → keyOf? (s ++ b) = keyOf? s :=
    fun b hb => keyOf?_pad (List.forall_mem_nil _) hb s
  by_cases hr : '\r' ∈ back
  · obtain ⟨b, bs, rfl, hb⟩ := List.eq_append_cons_of_mem hr
    obtain ⟨hblank, hrest⟩ := List.forall_mem_append.mp hback
    have hno : '\r' ∉ s ++ b := by simp [hs, hb]
    rw [← List.append_assoc, Text.splitOn_append_sep hno, List.filterMap_cons, hpad b hblank,
      filterMap_splitOn_of_blank (List.forall_mem_cons.mp hrest).2]
    cases keyOf? s <;> rfl
  · have hno : '\r' ∉ s ++ back := by simp [hs, hr]
    rw [Text.splitOn_of_not_mem hno, List.filterMap_cons, hpad back hback]
    cases keyOf? s <;> rfl

/-- A text without carriage returns sets its key also among white space that is cut at some. -/
theorem filterMap_splitOn_pad {front back : Text} (hfront : ∀ c ∈ front, isBlank c = true)
    (hback : ∀ c ∈ back, isBlank c = true) {s : Text} (hs : '\r' ∉ s) :
    (Text.splitOn '\r' (front ++ s ++ back)).filterMap keyOf? = (keyOf? s).toList := by
  -- the white space in front is given to the text up to the last carriage return
  induction front using List.reverseRecOn generalizing s with
  | nil => exact filterMap_splitOn_append hback hs
  | append_singleton front c ih =>
    obtain ⟨hblank, hc⟩ := List.forall_mem_append.mp hfront
    rw [List.append_assoc front, List.singleton_append]
    by_cases hr : c = '\r'
    · subst hr
      rw [List.append_assoc, List.cons_append, Text.splitOn_append, List.filterMap_append,
        filterMap_splitOn_of_blank hblank, filterMap_splitOn_append hback hs, List.nil_append]
    · have hpad : keyOf? (c :: s) = keyOf? s := by
        have hpad := keyOf?_pad hc (List.forall_mem_nil _) s
        rwa [List.append_nil] at hpad
      rw [ih hblank (by simp [hs, Ne.symm hr]), hpad]

/-- **Where the carriage returns of a line stand among the white space at its ends, its pieces set
the key that the line sets.** -/
theorem filterMap_splitOn_of_strip {line : Text} (h : '\r' ∉ Text.strip line) :
    (Text.splitOn '\r' line).filterMap keyOf? = (keyOf? line).toList := by
  obtain ⟨front, back, hfront, hback, hline⟩ := Text.exists_strip line
  generalize Text.strip line = s at h hline
  rw [hline, keyOf?_pad hfront hback]
  exact filterMap_splitOn_pad hfront hback h

/-- Whether the carriage returns of a text all stand among the white space at the ends of its
lines. -/
def ReturnsAtEnds (content : Text) : Prop := ∀ line ∈ Text.lines content, '\r' ∉ Text.strip line

/-- **Where the carriage returns stand at the ends of lines, the pieces of a text set the keys that
its lines set.** -/
theorem filterMap_pieces {content : Text} (h : ReturnsAtEnds content) :
    (Text.pieces content).filterMap keyOf? = (Text.lines content).filterMap keyOf? := by
  rw [Text.pieces, List.filterMap_flatMap, List.filterMap_eq_flatMap_toList]
  exact List.flatMap_congr fun line hline => filterMap_splitOn_of_strip (h line hline)

/-! ## The keys of examples -/

theorem keys_map_toExample (entries : List EnvEntry) :
    keys (entries.map toExample) = keys entries := by
  refine keys_map (fun e => ?_) entries
  obtain ⟨kind, raw, n, key, value⟩ := e
  cases kind <;> exact ⟨rfl, rfl⟩

theorem countP_isVariable_ofLines (n : Nat) (lines : List Text) :
    (ofLines n lines).countP isVariable = (lines.filterMap keyOf?).length := by
  induction lines generalizing n with
  | nil => rfl
  | cons line lines ih =>
    rw [ofLines, List.filterMap_cons, List.countP_cons, isVariable_ofLine, ih (n + 1)]
    cases keyOf? line <;> rfl

/-- The variables that are read of a text with unified line ends have the keys of its pieces. -/
theorem keys_parse_unifyNewlines (content : Text) :
    keys (parse (Text.unifyNewlines content)) = (Text.pieces content).filterMap keyOf? := by
  rw [keys_parse]
  exact Text.filterMap_lines_unifyNewlines rfl content

end EnvEntry

/-- How the keys of an example and of a record come from the text of one file: the record has those
of the lines and the example those of the pieces, which are the same if the carriage returns stand
at the ends of lines. -/
structure KeysFrom (content : Text) (r : ExampleResult) (record : EnvFileRecord) : Prop where
  record_keys : record.keys = (Text.lines content).filterMap EnvEntry.keyOf?
  record_keysFound : record.keysFound = record.keys.length
  example_keys : EnvEntry.keys (EnvEntry.parse r.content) =
    (Text.pieces content).filterMap EnvEntry.keyOf?
  example_keysFound : r.keysFound = (EnvEntry.keys (EnvEntry.parse r.content)).length
  agree : EnvEntry.ReturnsAtEnds content →
    EnvEntry.keys (EnvEntry.parse r.content) = record.keys ∧ r.keysFound = record.keysFound

/-! ## The example of a file -/

namespace ExampleFile

open FileTree

variable {t : FileTree} {env : PathName} {output : Option PathName} {force : Bool}
  {r : ExampleResult} {source : Location} {bytes : List UInt8} {content : Text}

/-- An example that was made is the one of the text of its file. -/
theorem written_of_outcome_make (henv : t.find? env = .ok (some (source, .file bytes)))
    (hcontent : Utf8.decode bytes = .ok content)
    (hmake : (make env output force t).outcome = .ok r) (hsuccess : r.success = true) :
    r = written env (outputFor env output) (EnvEntry.parse (Text.unifyNewlines content)) := by
  cases outcome_make_eq_ok_iff.mp hmake with
  | kept => cases hsuccess
  | written _ _ hread =>
    rw [readEntries, bytesOf?, henv] at hread
    simp only [hcontent, Except.ok.injEq] at hread
    rw [hread]

theorem keys_content_written (env : PathName) (content : Text) (output : PathName) :
    EnvEntry.keys (EnvEntry.parse
        (written env output (EnvEntry.parse (Text.unifyNewlines content))).content) =
      (Text.pieces content).filterMap EnvEntry.keyOf? := by
  rw [written, EnvEntry.parse_exampleText, EnvEntry.keys_map_toExample,
    EnvEntry.keys_parse_unifyNewlines]

/-- The file that an example was written to holds the content of the result. -/
theorem at?_of_outcome_make (ht : t.Proper)
    (hpipe : ∀ loc, t.find? (outputFor env output) ≠ .ok (some (loc, .pipe)))
    (hmake : (make env output force t).outcome = .ok r) (hsuccess : r.success = true) :
    ∃ loc, t.realPath (outputFor env output) = ⟨.root, loc⟩ ∧
      (make env output force t).after.at? loc = some (.file (Utf8.encode r.content)) := by
  rcases make_cases t env output force with ⟨e, h⟩ | h | ⟨isThere, entries, -, -, h⟩
  · rw [h] at hmake
    cases hmake
  · rw [h] at hmake
    cases hmake
    cases hsuccess
  · rcases Changing.writeFile_cases ht hpipe (Utf8.encode (EnvEntry.exampleText entries)) with
      ⟨e, hw⟩ | ⟨loc, after, hw, hreal, hat, -⟩
    · rw [h, hw] at hmake
      cases hmake
    · rw [h, hw] at hmake ⊢
      cases hmake
      exact ⟨loc, hreal, hat⟩

end ExampleFile

namespace Inventory

open DirectoryScan ExampleFile

variable {t : FileTree} {root : PathName} {loc : Location} {env : PathName}
  {output : Option PathName} {force : Bool} {r : ExampleResult} {source : Location}
  {bytes : List UInt8} {content : Text}

theorem keys_recordAt (tracker : Tracker) {rel : RelPath}
    (hfile : t.find? (root.descend rel) = .ok (some (source, .file bytes)))
    (hsize : bytes.length ≤ FileTree.defaultMaxSize) (hnull : 0 ∉ bytes)
    (hcontent : Utf8.decode bytes = .ok content) :
    (recordAt t root tracker rel).keys = (Text.lines content).filterMap EnvEntry.keyOf? := by
  have hnull : bytes.contains 0 = false := by simpa using hnull
  have htext : t.readText (root.descend rel) FileTree.defaultMaxSize = .ok (some content) := by
    rw [FileTree.readText, FileTree.bytesOf?, hfile]
    simp only [FileTree.textWithin, if_neg (Int.not_lt.mpr hsize), hnull, Utf8.decode?, hcontent]
    rfl
  rw [recordAt, htext]
  exact EnvEntry.keys_parse content

/-- The example and the record of a file have the keys that its text gives them. -/
theorem keysFrom_recordAt (tracker : Tracker) {rel : RelPath}
    (hfile : t.find? (root.descend rel) = .ok (some (source, .file bytes)))
    (hsize : bytes.length ≤ FileTree.defaultMaxSize) (hnull : 0 ∉ bytes)
    (hcontent : Utf8.decode bytes = .ok content) (output : PathName) :
    KeysFrom content (written env output (EnvEntry.parse (Text.unifyNewlines content)))
      (recordAt t root tracker rel) := by
  have hrecord : (recordAt t root tracker rel).keys = _ :=
    keys_recordAt tracker hfile hsize hnull hcontent
  have hexample := keys_content_written env content output
  have hcount : (written env output (EnvEntry.parse (Text.unifyNewlines content))).keysFound =
      ((Text.pieces content).filterMap EnvEntry.keyOf?).length := by
    rw [← Text.filterMap_lines_unifyNewlines rfl, ← EnvEntry.countP_isVariable_ofLines 1]
    rfl
  refine ⟨hrecord, rfl, hexample, hexample ▸ hcount, fun hends => ?_⟩
  rw [hexample, hcount, EnvEntry.filterMap_pieces hends, ← hrecord]
  exact ⟨rfl, rfl⟩

/-- **The keys of a record are those of the lines of its file, and the keys of an example those of
the pieces between its line ends.** They are the same, in order and in number, if the carriage
returns of the file stand at the ends of its lines. -/
theorem example_keys_agree (ht : t.Proper) {es : List (Text × FileNode)}
    (hroot : t.find? root = .ok (some (loc, .dir es))) (globs : List Text) (tracker : Tracker)
    (henv : t.find? env = .ok (some (source, .file bytes)))
    (hsize : bytes.length ≤ FileTree.defaultMaxSize) (hnull : 0 ∉ bytes)
    (hcontent : Utf8.decode bytes = .ok content)
    (hmake : (make env output force t).outcome = .ok r) (hsuccess : r.success = true) :
    (∃ files inventory, findEnvFiles t root globs = .ok files ∧
      (take t root globs tracker).outcome = .ok inventory ∧
      List.Forall₂ (fun rel record => record.path = shownPath rel ∧
        (t.find? (root.descend rel) = t.find? env → KeysFrom content r record))
        files inventory.records) ∧
    ((∀ loc, t.find? (outputFor env output) ≠ .ok (some (loc, .pipe))) →
      ∃ loc, t.realPath (outputFor env output) = ⟨.root, loc⟩ ∧
        (make env output force t).after.at? loc = some (.file (Utf8.encode r.content))) := by
  obtain ⟨asked, htake⟩ := outcome_take ht hroot globs tracker
  refine ⟨⟨_, _, findEnvFiles_of_find? hroot globs, htake, ?_⟩, fun hpipe => ?_⟩
  · rw [List.forall₂_map_right_iff, List.forall₂_same]
    intro rel _
    refine ⟨rfl, fun hsame => ?_⟩
    rw [written_of_outcome_make henv hcontent hmake hsuccess]
    exact keysFrom_recordAt tracker (hsame.trans henv) hsize hnull hcontent _
  · exact at?_of_outcome_make ht hpipe hmake hsuccess

/-- An environment file alone in a project. -/
def aloneTree (content : Text) : FileTree where
  root := .dir [(".env".toList, .file (Utf8.encode content))]
  here := []

theorem find?_root_aloneTree (content : Text) : (aloneTree content).find? ⟨.root, []⟩ =
    .ok (some ([], .dir [(".env".toList, .file (Utf8.encode content))])) := rfl

/-- An environment file that is alone is among the files that are found. -/
theorem dotEnv_mem_candidatesIn {content : Text} (ht : (aloneTree content).Proper) :
    [".env".toList] ∈ ((aloneTree content).candidatesIn [] [] []
      (.dir [(".env".toList, .file (Utf8.encode content))])).filter isEnvFile := by
  have hfile : (aloneTree content).HasFile [] [".env".toList] := ⟨[], _, _, rfl, rfl, rfl⟩
  have hkept : FileTree.IsKept [] [".env".toList] := ⟨by decide, by decide, by decide⟩
  have hmem := (FileTree.mem_candidatesIn_iff ht
    (FileTree.at?_of_find? (find?_root_aloneTree content)) _).mpr ⟨hfile, hkept⟩
  exact List.mem_filter.mpr ⟨hmem, by decide⟩

/-- An environment file that is alone has its example made. -/
theorem outcome_make_aloneTree (content : Text) :
    (make dotEnv none false (aloneTree content)).outcome =
      .ok (written dotEnv (outputFor dotEnv none)
        (EnvEntry.parse (Text.unifyNewlines content))) := by
  have hread : readEntries (aloneTree content) dotEnv (outputFor dotEnv none).name =
      .ok (EnvEntry.parse (Text.unifyNewlines content)) := by
    have henv : (aloneTree content).find? dotEnv =
      .ok (some ([".env".toList], .file (Utf8.encode content))) := rfl
    rw [readEntries, FileTree.bytesOf?, henv]
    simp only [Utf8.decode_encode]
  have hcheck : check (aloneTree content) dotEnv (outputFor dotEnv none) = .ok false := rfl
  have hvacant : (aloneTree content).lookup (outputFor dotEnv none) true =
    .ok (.vacant [] ".env.example".toList) := rfl
  refine outcome_make_eq_ok_iff.mpr (.written hcheck rfl hread ?_)
  rw [Changing.writeFile_apply, hvacant]

/-- An environment file from another system, with a carriage return in front of each line feed. -/
def returnsText : Text := "A=1\r\n# c\r\nB = 2\r\n".toList

/-- The example of a file whose lines end in two characters has the keys of its record. -/
theorem example_keys_agree_returns : EnvEntry.ReturnsAtEnds returnsText ∧
    ∃ r inventory record, (make dotEnv none false (aloneTree returnsText)).outcome = .ok r ∧
      r.success = true ∧
      (take (aloneTree returnsText) ⟨.root, []⟩ [] (.repository false)).outcome = .ok inventory ∧
      record ∈ inventory.records ∧ record.path = ".env".toList ∧
      EnvEntry.keys (EnvEntry.parse r.content) = record.keys ∧ r.keysFound = record.keysFound := by
  have ht : (aloneTree returnsText).Proper := ⟨by decide, rfl, rfl⟩
  have hends : EnvEntry.ReturnsAtEnds returnsText := by
    unfold EnvEntry.ReturnsAtEnds
    decide
  have hroot := find?_root_aloneTree returnsText
  have henv : (aloneTree returnsText).find? dotEnv =
    .ok (some ([".env".toList], .file (Utf8.encode returnsText))) := rfl
  have hmake := outcome_make_aloneTree returnsText
  obtain ⟨⟨files, inventory, hfiles, htake, hrecords⟩, -⟩ := example_keys_agree ht hroot []
    (.repository false) henv (by decide) (by decide) (Utf8.decode_encode returnsText) hmake rfl
  cases (findEnvFiles_of_find? hroot []).symm.trans hfiles
  obtain ⟨i, hi⟩ := List.get_of_mem (dotEnv_mem_candidatesIn ht)
  obtain ⟨hpath, hkeys⟩ := hrecords.get i.isLt (hrecords.length_eq ▸ i.isLt)
  rw [hi] at hpath hkeys
  obtain ⟨hkeys, hfound⟩ := (hkeys rfl).agree hends
  exact ⟨hends, _, inventory, _, hmake, rfl, htake, List.get_mem _ _, hpath, hkeys, hfound⟩

/-- Whether the example that is made of a file has the keys of the file's records. -/
def KeysAgree (t : FileTree) (root env : PathName) : Prop :=
  ∀ source bytes content r files inventory, t.find? env = .ok (some (source, .file bytes)) →
    bytes.length ≤ FileTree.defaultMaxSize → 0 ∉ bytes → Utf8.decode bytes = .ok content →
    (make env none false t).outcome = .ok r → r.success = true →
    findEnvFiles t root [] = .ok files →
    (take t root [] (.repository false)).outcome = .ok inventory →
    List.Forall₂ (fun rel record => t.find? (root.descend rel) = t.find? env →
      r.keysFound = record.keysFound ∧ EnvEntry.keys (EnvEntry.parse r.content) = record.keys)
      files inventory.records

/-- An environment file with a carriage return between two assignments. -/
def loneReturnText : Text := "A=1\rB=2".toList

/-- A carriage return inside of a line ends it for the example, but not for the record. -/
theorem readers_disagree : ¬ KeysAgree (aloneTree loneReturnText) ⟨.root, []⟩ dotEnv := by
  intro h
  have ht : (aloneTree loneReturnText).Proper := ⟨by decide, rfl, rfl⟩
  have hroot := find?_root_aloneTree loneReturnText
  obtain ⟨asked, htake⟩ := outcome_take ht hroot [] (.repository false)
  have hagree := h _ _ _ _ _ _ rfl (by decide) (by decide) (Utf8.decode_encode loneReturnText)
    (outcome_make_aloneTree loneReturnText) rfl (findEnvFiles_of_find? hroot []) htake
  rw [List.forall₂_map_right_iff, List.forall₂_same] at hagree
  have hkeys := (hagree _ (dotEnv_mem_candidatesIn ht) rfl).2
  have hfound : (aloneTree loneReturnText).find? (PathName.descend ⟨.root, []⟩ [".env".toList]) =
    .ok (some ([".env".toList], .file (Utf8.encode loneReturnText))) := rfl
  rw [keys_content_written, keys_recordAt _ hfound (by decide) (by decide)
    (Utf8.decode_encode loneReturnText)] at hkeys
  revert hkeys
  decide +kernel

end Inventory
end EnvAudit
