import EnvAudit.Config

/-!
# Options that are loaded

Whatever options are loaded are valid. But not every file with options is read: `loadNamed_valid_iff`
says for which there are options at all. A document that is malformed, or no mapping, is left out with
a warning. A file that is no text, a document whose reading fails otherwise, such as for a scalar
without the value that its tag asks for, a list of globs with a list among its items and a key that is
too long a number all end the loading, and so do not fall back to the defaults (`load_fails`).
-/
namespace EnvAudit

namespace ScanConfig

open Data Logged

/-! ## Options one by one -/

/-- Whether an entry of the file can be used: a list that is added to one of the options has only
items that can be compared, and a key that is no option can be shown. -/
def IsUsable (entry : Data × Data) : Prop :=
  match Data.find? entry.1 defaultValues with
  | some (.list _) => ∀ items, entry.2 = .list items → ∀ d ∈ items, d.isKey = true
  | some _ => True
  | none => entry.1.isShowable = true

theorem distinctItems_ok_iff (items : List Data) :
    (∃ l, distinctItems items = .ok l) ↔ ∀ d ∈ items, d.isKey = true := by
  unfold distinctItems
  split
  · rename_i d h
    refine iff_of_false (by simp) fun hall => ?_
    simpa [hall d (List.mem_of_find?_eq_some h)] using List.find?_some h
  · rename_i h
    exact iff_of_true ⟨_, rfl⟩ (by simpa using h)

/-- Only one option is a list, and by default it is empty. -/
theorem eq_nil_of_default_list {key : Data} {xs : List Data}
    (h : Data.find? key defaultValues = some (.list xs)) : xs = [] := by
  simp only [defaultValues, ScanConfig.toData, Data.find?, default, limitData] at h
  split at h
  · cases h
    rfl
  · repeat' split at h
    all_goals cases h

/-- An option can be set if what is said of it by default can be. -/
theorem merged_ok_iff {key old new : Data} (h : Data.find? key defaultValues = some old) :
    (∃ d, merged old new = .ok d) ↔ IsUsable (key, new) := by
  rw [IsUsable, h]
  cases old with
  | list xs =>
    obtain rfl := eq_nil_of_default_list h
    cases new with
    | list ys =>
      refine Iff.trans ?_ ((distinctItems_ok_iff ys).trans (by simp))
      rw [merged, List.nil_append]
      cases distinctItems ys <;> simp [Except.map]
    | _ => exact iff_of_true ⟨_, rfl⟩ (by simp)
  | _ => exact iff_of_true ⟨_, rfl⟩ trivial

theorem warnOfKey_ok_iff (path : PathName) (key : Data) :
    (∃ u, (warnOfKey path key).outcome = .ok u) ↔ key.isShowable = true := by
  unfold warnOfKey
  split
  · rename_i h
    exact iff_of_true ⟨(), rfl⟩ h
  · rename_i h
    exact iff_of_false (by rintro ⟨_, ⟨⟩⟩) h

/-- An entry sets its option, or is passed over, exactly if it can be used. -/
theorem setEntry_ok_iff {path : PathName} {values : Values} {entry : Data × Data}
    (h : Data.find? entry.1 values = Data.find? entry.1 defaultValues) :
    (∃ v, (setEntry path values entry).outcome = .ok v) ↔ IsUsable entry := by
  unfold setEntry
  rw [h]
  cases hf : Data.find? entry.1 defaultValues with
  | none =>
    rw [IsUsable, hf]
    refine Iff.trans ?_ (warnOfKey_ok_iff path entry.1)
    simp [outcome_bind_eq_ok_iff]
  | some old =>
    refine Iff.trans ?_ (merged_ok_iff hf)
    constructor
    · rintro ⟨v, hv⟩
      obtain ⟨new, hnew, -⟩ := outcome_bind_eq_ok_iff.mp hv
      exact ⟨new, hnew⟩
    · rintro ⟨new, hnew⟩
      exact ⟨_, outcome_bind_eq_ok_iff.mpr ⟨new, hnew, rfl⟩⟩

/-- Setting one option leaves the others. -/
theorem find?_of_setEntry {path : PathName} {values v : Values} {entry : Data × Data}
    (h : (setEntry path values entry).outcome = .ok v) {key : Data}
    (hne : Data.sameKey entry.1 key = false) : Data.find? key v = Data.find? key values := by
  unfold setEntry at h
  split at h
  · obtain ⟨-, -, h⟩ := outcome_bind_eq_ok_iff.mp h
    cases h
    rfl
  · obtain ⟨new, -, h⟩ := outcome_bind_eq_ok_iff.mp h
    cases h
    rw [find?_insert, if_neg (ne_true_of_eq_false hne)]

theorem foldlM_setEntry_ok_iff (path : PathName) {entries : List (Data × Data)}
    (hd : KeysDistinct entries) {values : Values}
    (h : ∀ e ∈ entries, Data.find? e.1 values = Data.find? e.1 defaultValues) :
    (∃ v, (entries.foldlM (setEntry path) values).outcome = .ok v) ↔
      ∀ e ∈ entries, IsUsable e := by
  induction entries generalizing values with
  | nil => exact iff_of_true ⟨values, rfl⟩ (by simp)
  | cons e entries ih =>
    obtain ⟨hne, hd⟩ := List.pairwise_cons.mp hd
    have hstep : (∃ v, (setEntry path values e).outcome = .ok v) ↔ IsUsable e :=
      setEntry_ok_iff (h e List.mem_cons_self)
    rw [List.foldlM_cons, List.forall_mem_cons, ← hstep]
    -- what an entry sets is not what a later entry asks for
    have hrest : ∀ v, (setEntry path values e).outcome = .ok v → ∀ e' ∈ entries,
        Data.find? e'.1 v = Data.find? e'.1 defaultValues := fun v hv e' he' => by
      rw [find?_of_setEntry hv (hne _ (List.mem_map_of_mem he'))]
      exact h e' (List.mem_cons_of_mem _ he')
    constructor
    · rintro ⟨w, hw⟩
      obtain ⟨v, hv, hw⟩ := outcome_bind_eq_ok_iff.mp hw
      exact ⟨⟨v, hv⟩, (ih hd (hrest v hv)).mp ⟨w, hw⟩⟩
    · rintro ⟨⟨v, hv⟩, hall⟩
      obtain ⟨w, hw⟩ := (ih hd (hrest v hv)).mpr hall
      exact ⟨w, outcome_bind_eq_ok_iff.mpr ⟨v, hv, hw⟩⟩

/-! ## The file -/

/-- Whether the file with options can be read, if there is one: it can be asked for by its name, its
document is read or is malformed, and the entries of a mapping can be used. -/
structure IsReadable (t : FileTree) (path : PathName) (reader : Yaml.Reader) : Prop where
  name : ∃ b, t.isFileAsked? path = .ok b
  document : ∀ bytes failure, t.bytesOf? path = .ok (some bytes) →
    reader.read (.ofBytes bytes) ≠ .error (.ended failure)
  usable : ∀ bytes entries, t.bytesOf? path = .ok (some bytes) →
    reader.read (.ofBytes bytes) = .ok (.map entries) → ∀ e ∈ entries, IsUsable e

/-- A mapping has its entries, and any other document none, unless reading ends in a failure. -/
theorem entriesOf_ok_iff {path : PathName} {document : Except Yaml.LoadFault Data}
    {entries : List (Data × Data)} :
    (entriesOf path document).outcome = .ok entries ↔
      document = .ok (.map entries) ∨ entries = [] ∧ (∀ m, document ≠ .ok (.map m)) ∧
        ∀ failure, document ≠ .error (.ended failure) := by
  unfold entriesOf
  split
  · simp [bind_ok, Logged.warn, eq_comm]
  · simp [Logged.fail]
  · simp [eq_comm]
  · rename_i d hd
    have hnomap : ∀ m, (.ok d : Except Yaml.LoadFault Data) ≠ .ok (.map m) := fun m h =>
      hd m (Except.ok.inj h)
    constructor
    · intro h
      split at h <;> cases h <;> exact .inr ⟨rfl, hnomap, nofun⟩
    · rintro (h | ⟨rfl, -, -⟩)
      · exact absurd h (hnomap entries)
      · split <;> rfl

section

variable {t : FileTree} {path : PathName} {reader : Yaml.Reader}

theorem exists_bytesOf?_of_isFile? (h : t.isFile? path = .ok true) :
    ∃ bytes, t.bytesOf? path = .ok (some bytes) := by
  obtain ⟨loc, bytes, hf⟩ := FileTree.find?_of_isFile? h
  exact ⟨bytes, by rw [FileTree.bytesOf?, hf]⟩

theorem isFile?_of_bytesOf? {bytes : List UInt8} (h : t.bytesOf? path = .ok (some bytes)) :
    t.isFile? path = .ok true := by
  unfold FileTree.bytesOf? at h
  split at h
  · rename_i hf
    rw [FileTree.isFile?, FileTree.isThere, hf]
  · cases h
  · cases h

/-- Where the whole name can be asked with, the answer is that of a look-up. -/
theorem isFile?_of_isFileAsked? {there : Bool} (h : t.isFileAsked? path = .ok there) :
    t.isFile? path = .ok there := by
  unfold FileTree.isFileAsked? at h
  split at h
  · cases h
  · exact h

theorem bytesOf?_ne_some (h : t.isFileAsked? path = .ok false) (bytes : List UInt8) :
    t.bytesOf? path ≠ .ok (some bytes) := fun hb => by
  cases (isFile?_of_isFileAsked? h).symm.trans (isFile?_of_bytesOf? hb)

theorem readEntries_of_bytes {bytes : List UInt8} (hfile : t.isFileAsked? path = .ok true)
    (hb : t.bytesOf? path = .ok (some bytes)) :
    (readEntries t path reader).outcome =
      (entriesOf path (reader.read (.ofBytes bytes))).outcome := by
  simp only [readEntries, hfile, FileTree.orFail, Logged.ofExcept, bind_ok, if_true, hb]

theorem readEntries_of_absent (h : t.isFileAsked? path = .ok false) :
    readEntries t path reader = ⟨[], .ok []⟩ := by
  simp only [readEntries, h, FileTree.orFail, Logged.ofExcept, bind_ok]
  rfl

theorem readEntries_of_problem {problem : PathProblem}
    (h : t.isFileAsked? path = .error problem) :
    (readEntries t path reader).outcome = .error (.path problem path.toText) := by
  simp only [readEntries, h, FileTree.orFail, Logged.ofExcept, bind_error]

/-- There is no file, or its document gives the entries. -/
theorem readEntries_eq_ok_iff {entries : List (Data × Data)} :
    (readEntries t path reader).outcome = .ok entries ↔
      t.isFileAsked? path = .ok false ∧ entries = [] ∨
        t.isFileAsked? path = .ok true ∧ ∃ bytes, t.bytesOf? path = .ok (some bytes) ∧
          (entriesOf path (reader.read (.ofBytes bytes))).outcome = .ok entries := by
  cases hf : t.isFileAsked? path with
  | error problem =>
    rw [readEntries_of_problem hf]
    simp
  | ok there =>
    cases there with
    | false =>
      rw [readEntries_of_absent hf]
      simp [eq_comm]
    | true =>
      obtain ⟨bytes, hb⟩ := exists_bytesOf?_of_isFile? (isFile?_of_isFileAsked? hf)
      rw [readEntries_of_bytes hf hb]
      simp [hb]

/-- The keys of the entries are distinct. -/
theorem keysDistinct_of_readEntries {entries : List (Data × Data)}
    (h : (readEntries t path reader).outcome = .ok entries) : KeysDistinct entries := by
  rcases readEntries_eq_ok_iff.mp h with ⟨-, rfl⟩ | ⟨-, bytes, -, he⟩
  · exact keysDistinct_nil
  · rcases entriesOf_ok_iff.mp he with hread | ⟨rfl, -, -⟩
    · exact reader.keysDistinct _ _ hread
    · exact keysDistinct_nil

/-- There are entries that can be used exactly if the file can be read. -/
theorem exists_usable_iff :
    (∃ entries, (readEntries t path reader).outcome = .ok entries ∧ ∀ e ∈ entries, IsUsable e) ↔
      IsReadable t path reader := by
  constructor
  · rintro ⟨entries, hr, hu⟩
    rcases readEntries_eq_ok_iff.mp hr with ⟨hf, rfl⟩ | ⟨hf, bytes, hb, he⟩
    · have hno := bytesOf?_ne_some hf
      exact ⟨⟨_, hf⟩, fun bytes _ hb => absurd hb (hno bytes),
        fun bytes _ hb => absurd hb (hno bytes)⟩
    · refine ⟨⟨_, hf⟩, fun bytes' failure hb' hread => ?_, fun bytes' m hb' hread => ?_⟩
      · cases hb.symm.trans hb'
        rcases entriesOf_ok_iff.mp he with hmap | ⟨-, -, hfail⟩
        · cases hmap.symm.trans hread
        · exact hfail failure hread
      · cases hb.symm.trans hb'
        rcases entriesOf_ok_iff.mp he with hmap | ⟨-, hnomap, -⟩
        · cases hmap.symm.trans hread
          exact hu
        · exact absurd hread (hnomap m)
  · intro h
    obtain ⟨there, hf⟩ := h.name
    cases there with
    | false => exact ⟨[], readEntries_eq_ok_iff.mpr (.inl ⟨hf, rfl⟩), by simp⟩
    | true =>
      obtain ⟨bytes, hb⟩ := exists_bytesOf?_of_isFile? (isFile?_of_isFileAsked? hf)
      by_cases hmap : ∃ m, reader.read (.ofBytes bytes) = .ok (.map m)
      · obtain ⟨m, hread⟩ := hmap
        exact ⟨m, readEntries_eq_ok_iff.mpr
          (.inr ⟨hf, bytes, hb, entriesOf_ok_iff.mpr (.inl hread)⟩), h.usable bytes m hb hread⟩
      · refine ⟨[], readEntries_eq_ok_iff.mpr
          (.inr ⟨hf, bytes, hb, entriesOf_ok_iff.mpr (.inr ⟨rfl, ?_, ?_⟩)⟩), by simp⟩
        · exact fun m hm => hmap ⟨m, hm⟩
        · exact fun failure => h.document bytes failure hb

end

/-! ## Valid options -/

/-- Whether no option is below its least value. -/
structure IsValid (c : ScanConfig) : Prop where
  maxFiles : ∀ n ∈ c.maxFiles, 0 ≤ n
  maxWorkers : 1 ≤ c.maxWorkers
  maxFileSize : 0 ≤ c.maxFileSize

theorem isValid_default : default.IsValid := ⟨by simp [default], by decide, by decide⟩

theorem le_of_intFrom {c : Coercion} {least n : Int} {d : Data}
    (h : Checked.intFrom c least d = .ok n) : least ≤ n := by
  unfold Checked.intFrom at h
  split at h
  · split at h
    · cases h
    · cases h
      omega
  · cases h

theorem le_of_orNull_intFrom {c : Coercion} {least n : Int} {d : Data} {limit : Option Int}
    (h : Checked.orNull (Checked.intFrom c least) d = .ok limit) (hn : n ∈ limit) : least ≤ n := by
  unfold Checked.orNull at h
  split at h
  · cases h
    cases hn
  · split at h
    · rename_i hm
      cases h
      cases hn
      exact le_of_intFrom hm
    · cases h

/-- A field has its value by default, or one that has passed the check. -/
theorem optional_eq_ok {α : Type} {name : String} {byDefault a : α} {check : Data → Checked α}
    {d : Data} (h : Checked.optional name byDefault check d = .ok a) :
    a = byDefault ∨ ∃ v, check v = .ok a := by
  unfold Checked.optional Checked.under at h
  split at h
  · rename_i a' ha
    cases h
    split at ha
    · exact .inr ⟨_, ha⟩
    · cases ha
      exact .inl rfl
  · cases h

theorem isValid_of_ofData {d : Data} {coercion : Coercion} {c : ScanConfig}
    (h : ofData d coercion = .ok c) : c.IsValid := by
  cases d with
  | map entries =>
    obtain ⟨_, size, h₃, hsize, rfl⟩ := Checked.ap_ok_iff.mp h
    obtain ⟨_, workers, h₂, hworkers, rfl⟩ := Checked.ap_ok_iff.mp h₃
    obtain ⟨_, files, h₁, hfiles, rfl⟩ := Checked.ap_ok_iff.mp h₂
    obtain ⟨_, exclude, h₀, -, rfl⟩ := Checked.ap_ok_iff.mp h₁
    cases h₀
    refine ⟨fun n hn => ?_, ?_, ?_⟩
    · rcases optional_eq_ok hfiles with rfl | ⟨v, hv⟩
      · exact isValid_default.maxFiles n hn
      · exact le_of_orNull_intFrom hv hn
    · rcases optional_eq_ok hworkers with rfl | ⟨v, hv⟩
      · exact isValid_default.maxWorkers
      · exact le_of_intFrom hv
    · rcases optional_eq_ok hsize with rfl | ⟨v, hv⟩
      · exact isValid_default.maxFileSize
      · exact le_of_intFrom hv
  | _ => cases h

theorem isValid_of_ofValues {values : Values} {coercion : Coercion} {c : ScanConfig}
    (h : (ofValues values coercion).outcome = .ok c) : c.IsValid := by
  obtain ⟨c', hc', hcheck⟩ := ofValues_checked values coercion
  cases hc'.symm.trans h
  rcases hcheck with rfl | hcheck
  · exact isValid_default
  · exact isValid_of_ofData hcheck

theorem setWorkers_ok (values : Values) (workers : Option Text) :
    ∃ v, (setWorkers values workers).outcome = .ok v := by
  unfold setWorkers
  split
  · exact ⟨_, rfl⟩
  · exact ⟨_, rfl⟩
  · split <;> exact ⟨_, rfl⟩

theorem isValid_of_ofEntries {path : PathName} {entries : List (Data × Data)}
    {workers : Option Text} {coercion : Coercion} {c : ScanConfig}
    (h : (ofEntries path entries workers coercion).outcome = .ok c) : c.IsValid := by
  obtain ⟨values, -, h⟩ := outcome_bind_eq_ok_iff.mp h
  obtain ⟨values', -, h⟩ := outcome_bind_eq_ok_iff.mp h
  exact isValid_of_ofValues h

/-- Entries give options exactly if each of them can be used. -/
theorem ofEntries_ok_iff (path : PathName) {entries : List (Data × Data)}
    (hd : KeysDistinct entries) (workers : Option Text) (coercion : Coercion) :
    (∃ c, (ofEntries path entries workers coercion).outcome = .ok c) ↔
      ∀ e ∈ entries, IsUsable e := by
  rw [← foldlM_setEntry_ok_iff path hd fun _ _ => rfl]
  constructor
  · rintro ⟨c, h⟩
    obtain ⟨values, hvalues, -⟩ := outcome_bind_eq_ok_iff.mp h
    exact ⟨values, hvalues⟩
  · rintro ⟨values, hvalues⟩
    obtain ⟨values', hvalues'⟩ := setWorkers_ok values workers
    obtain ⟨c, hc, -⟩ := ofValues_checked values' coercion
    exact ⟨c, outcome_bind_eq_ok_iff.mpr
      ⟨values, hvalues, outcome_bind_eq_ok_iff.mpr ⟨values', hvalues', hc⟩⟩⟩

/-- There are options for a directory exactly if its file with options can be read. -/
theorem load_ok_iff (t : FileTree) (root : PathName) (workers : Option Text) (readers : Readers) :
    (∃ c, (load t root workers readers).outcome = .ok c) ↔
      IsReadable t (root.child fileName) readers.documents := by
  rw [← exists_usable_iff]
  constructor
  · rintro ⟨c, h⟩
    obtain ⟨entries, hentries, h⟩ := outcome_bind_eq_ok_iff.mp h
    have hd := keysDistinct_of_readEntries hentries
    exact ⟨entries, hentries, (ofEntries_ok_iff _ hd workers readers.values).mp ⟨c, h⟩⟩
  · rintro ⟨entries, hentries, husable⟩
    have hd := keysDistinct_of_readEntries hentries
    obtain ⟨c, hc⟩ := (ofEntries_ok_iff _ hd workers readers.values).mpr husable
    exact ⟨c, outcome_bind_eq_ok_iff.mpr ⟨entries, hentries, hc⟩⟩

theorem isValid_of_load {t : FileTree} {root : PathName} {workers : Option Text}
    {readers : Readers} {c : ScanConfig} (h : (load t root workers readers).outcome = .ok c) :
    c.IsValid := by
  obtain ⟨entries, -, h⟩ := outcome_bind_eq_ok_iff.mp h
  exact isValid_of_ofEntries h

/-! ## Names as they are handed over -/

/-- When there are options for a directory under a name that is handed over. -/
inductive CanLoad (t : FileTree) (name : RawName) (reader : Yaml.Reader) : Prop
  /-- The name is not asked for, and so there is no file with options. -/
  | notAsked {fault : NameFault} (h : name.lookedUp = .error fault)
  /-- The name is no text, and so there is no file with options. -/
  | notText {bytes : List UInt8} {fault : Utf8.Fault} (h : name.lookedUp = .ok bytes)
    (htext : Utf8.decode bytes = .error fault)
    (hshort : t.isTooLongUnder (bytes ++ Utf8.encode ('/' :: fileName)) fault.position = false)
  | readable {bytes : List UInt8} {text : Text} (h : name.lookedUp = .ok bytes)
    (htext : Utf8.decode bytes = .ok text)
    (hread : IsReadable t ((PathName.ofText text).child fileName) reader)

theorem canLoad_iff_of_text {t : FileTree} {name : RawName} {reader : Yaml.Reader}
    {bytes : List UInt8} {text : Text} (h : name.lookedUp = .ok bytes)
    (htext : Utf8.decode bytes = .ok text) :
    CanLoad t name reader ↔ IsReadable t ((PathName.ofText text).child fileName) reader := by
  constructor
  · intro hcan
    cases hcan with
    | notAsked h' => cases h.symm.trans h'
    | notText h' htext' _ =>
      cases h.symm.trans h'
      cases htext.symm.trans htext'
    | readable h' htext' hread =>
      cases h.symm.trans h'
      cases htext.symm.trans htext'
      exact hread
  · exact .readable h htext

theorem canLoad_iff_of_fault {t : FileTree} {name : RawName} {reader : Yaml.Reader}
    {bytes : List UInt8} {fault : Utf8.Fault} (h : name.lookedUp = .ok bytes)
    (htext : Utf8.decode bytes = .error fault) :
    CanLoad t name reader ↔
      t.isTooLongUnder (bytes ++ Utf8.encode ('/' :: fileName)) fault.position = false := by
  constructor
  · intro hcan
    cases hcan with
    | notAsked h' => cases h.symm.trans h'
    | notText h' htext' hshort =>
      cases h.symm.trans h'
      cases htext.symm.trans htext'
      exact hshort
    | readable h' htext' _ =>
      cases h.symm.trans h'
      cases htext.symm.trans htext'
  · exact .notText h htext

theorem isValid_of_loadNamed {t : FileTree} {name : RawName} {workers : Option Text}
    {readers : Readers} {c : ScanConfig}
    (h : (loadNamed t name workers readers).outcome = .ok c) : c.IsValid := by
  rw [loadNamed] at h
  split at h
  · exact isValid_of_ofEntries h
  · split at h
    · exact isValid_of_load h
    · dsimp only at h
      split at h
      · cases h
      · exact isValid_of_ofEntries h

theorem loadNamed_ok_iff (t : FileTree) (name : RawName) (workers : Option Text)
    (readers : Readers) :
    (∃ c, (loadNamed t name workers readers).outcome = .ok c) ↔
      CanLoad t name readers.documents := by
  have hnone := (ofEntries_ok_iff (.ofText fileName) keysDistinct_nil workers
    readers.values).mpr (by simp)
  rw [loadNamed]
  cases h : name.lookedUp with
  | error fault => exact iff_of_true hnone (.notAsked h)
  | ok bytes =>
    dsimp only
    cases htext : Utf8.decode bytes with
    | ok text =>
      dsimp only
      rw [load_ok_iff, canLoad_iff_of_text h htext]
    | error fault =>
      dsimp only
      rw [canLoad_iff_of_fault h htext]
      split
      · rename_i hlong
        exact iff_of_false (by rintro ⟨c, ⟨⟩⟩) (ne_false_of_eq_true hlong)
      · rename_i hshort
        exact iff_of_true hnone (eq_false_of_ne_true hshort)

/-- Whether a directory, by its name as it is handed over, has a file with options of these bytes. -/
def HasOptions (t : FileTree) (name : RawName) (bytes : List UInt8) : Prop :=
  ∃ dir text, name.lookedUp = .ok dir ∧ Utf8.decode dir = .ok text ∧
    t.bytesOf? ((PathName.ofText text).child fileName) = .ok (some bytes)

/-- Whether bytes stop being text within the first piece that is read of them. -/
def BreaksEarly (bytes : List UInt8) : Prop :=
  ∃ text fault, TextStream.ofBytes bytes = ⟨text, some fault⟩ ∧
    text.length < Yaml.Reader.pieceLength

theorem not_canLoad_of_breaksEarly {t : FileTree} {name : RawName} {reader : Yaml.Reader}
    (hasks : reader.AsksFirst) {bytes : List UInt8} (hfile : HasOptions t name bytes)
    (hbreaks : BreaksEarly bytes) : ¬ CanLoad t name reader := by
  obtain ⟨dir, text, hdir, htext, hbytes⟩ := hfile
  obtain ⟨content, fault, hstream, hlength⟩ := hbreaks
  obtain ⟨shown, hread⟩ := hasks content fault hlength
  rw [canLoad_iff_of_text hdir htext]
  exact fun hreadable => hreadable.document bytes _ hbytes (by rw [hstream, hread])

/-- **Options that are loaded are valid, and there are options exactly where they can be loaded**, for
every way to read documents and single values. A file with options that stops being text within the
first piece that is read of it is not passed over, if the reader asks for a piece before it looks. -/
theorem loadNamed_valid_iff (t : FileTree) (name : RawName) (workers : Option Text)
    (readers : Readers) :
    (∀ c, (loadNamed t name workers readers).outcome = .ok c → c.IsValid) ∧
      ((∃ c, (loadNamed t name workers readers).outcome = .ok c) ↔
        CanLoad t name readers.documents) ∧
      (readers.documents.AsksFirst → ∀ bytes, HasOptions t name bytes → BreaksEarly bytes →
        ∀ c, (loadNamed t name workers readers).outcome ≠ .ok c) := by
  have hiff := loadNamed_ok_iff t name workers readers
  refine ⟨fun c h => isValid_of_loadNamed h, hiff, fun hasks bytes hfile hbreaks c h => ?_⟩
  exact not_canLoad_of_breaksEarly hasks hfile hbreaks (hiff.mp ⟨c, h⟩)

/-- A directory whose file with options is a single byte that no text starts with. -/
def brokenTree : FileTree where
  root := .dir [(fileName, .file [0xFF])]
  here := []

theorem hasOptions_brokenTree : HasOptions brokenTree (.ofText ['.']) [0xFF] :=
  ⟨Utf8.encode ['.'], ['.'], rfl, Utf8.decode_encode _, rfl⟩

theorem breaksEarly_byte : BreaksEarly [0xFF] := ⟨[], _, rfl, by decide⟩

/-- The program, which reads documents strictly, has no options for the directory. -/
theorem loadNamed_valid_iff_broken :
    Yaml.Reader.strict.AsksFirst ∧ HasOptions brokenTree (.ofText ['.']) [0xFF] ∧
      BreaksEarly [0xFF] ∧ ∀ c, (loadNamed brokenTree (.ofText ['.']) none).outcome ≠ .ok c :=
  ⟨Yaml.Reader.asksFirst_strict, hasOptions_brokenTree, breaksEarly_byte,
    (loadNamed_valid_iff brokenTree (.ofText ['.']) none {}).2.2 Yaml.Reader.asksFirst_strict _
      hasOptions_brokenTree breaksEarly_byte⟩

/-- A file with options that is no text is not passed over. -/
theorem load_fails : ¬ ∀ (t : FileTree) (name : RawName) (workers : Option Text),
    ∃ c, (loadNamed t name workers).outcome = .ok c := by
  intro h
  obtain ⟨c, hc⟩ := h brokenTree (.ofText ['.']) none
  have hcan := (loadNamed_ok_iff _ _ _ _).mp ⟨c, hc⟩
  exact not_canLoad_of_breaksEarly Yaml.Reader.asksFirst_strict hasOptions_brokenTree
    breaksEarly_byte hcan

end ScanConfig
end EnvAudit
