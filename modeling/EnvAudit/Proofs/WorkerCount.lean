import EnvAudit.Proofs.LoadedConfig

/-!
# The number of workers

The variable of the environment takes the place of what the file says of the number of workers, and
all options are checked together afterwards. So two values of the variable give the same options but
for that number if the number can be used with both or with neither (`load_sameButWorkers`). With a
number that cannot be used nothing of the file is left: one value of the variable can then undo the
globs that the file asks for (`load_loses_globs`).
-/
namespace EnvAudit

namespace ScanConfig

open Data Logged

/-! ## What is asked for -/

/-- The name of the number of workers. -/
def workersKey : Data := .text "max_workers".toList

/-- The number of workers that a value of the variable asks for, if it asks for one. -/
def askedWorkers : Option Text → Option Int
  | none | some [] => none
  | some t => intOfText? t

/-- What stands for the number of workers under a value of the variable, where `written` is what
stands for it without. -/
def workersOr (written : Data) (setting : Option Text) : Data :=
  ((askedWorkers setting).map .int).getD written

/-- What the file says of the number of workers, or the default if it says nothing. -/
def writtenWorkers (t : FileTree) (root : PathName) (reader : Yaml.Reader) : Data :=
  match (readEntries t (root.child fileName) reader).outcome with
  | .ok entries => (find? workersKey entries).getD (.int default.maxWorkers)
  | .error _ => .int default.maxWorkers

/-- Whether a piece of data can be used as a number of workers. -/
def IsWorkerCount (coercion : Coercion) (d : Data) : Prop :=
  ∃ n, Checked.intFrom coercion 1 d = .ok n

theorem isWorkerCount_int {coercion : Coercion} (hc : coercion.KeepsTyped) {n : Int} :
    IsWorkerCount coercion (.int n) ↔ 1 ≤ n := by
  unfold IsWorkerCount Checked.intFrom
  rw [hc.int]
  by_cases h : n < 1
  · simp [h, Checked.flaw]
  · simp [h]
    omega

/-! ## The values of the options -/

/-- The values of the options under a value of the variable. -/
def valuesWith (values : Values) (setting : Option Text) : Values :=
  match askedWorkers setting with
  | some n => insert workersKey (.int n) values
  | none => values

theorem outcome_setWorkers (values : Values) (setting : Option Text) :
    (setWorkers values setting).outcome = .ok (valuesWith values setting) := by
  match setting with
  | none => rfl
  | some [] => rfl
  | some (c :: t) =>
    simp only [setWorkers, valuesWith, askedWorkers]
    cases intOfText? (c :: t) <;> rfl

section

variable {values : Values} {written : Data} {coercion : Coercion}

theorem find?_valuesWith_workersKey (h : find? workersKey values = some written)
    (setting : Option Text) :
    find? workersKey (valuesWith values setting) = some (workersOr written setting) := by
  unfold valuesWith workersOr
  cases askedWorkers setting with
  | none => exact h
  | some n => exact find?_insert workersKey workersKey (.int n) values

theorem find?_valuesWith {key : Data} (h : sameKey workersKey key = false)
    (setting : Option Text) : find? key (valuesWith values setting) = find? key values := by
  unfold valuesWith
  cases askedWorkers setting with
  | none => rfl
  | some n => exact (find?_insert workersKey key (.int n) values).trans (if_neg (by simp [h]))

/-- What the options other than the number of workers are read as. -/
structure ReadsOthers (coercion : Coercion) (values : Values) (c : ScanConfig) : Prop where
  exclude : Checked.optional "exclude" default.exclude (Checked.list coercion coercion.text)
    (.map values) = .ok c.exclude
  maxFiles : Checked.optional "max_files" default.maxFiles
    (Checked.orNull (Checked.intFrom coercion 0)) (.map values) = .ok c.maxFiles
  maxFileSize : Checked.optional "max_file_size" default.maxFileSize
    (Checked.intFrom coercion 0) (.map values) = .ok c.maxFileSize

theorem ReadsOthers.same {c c' : ScanConfig} (h : ReadsOthers coercion values c)
    (h' : ReadsOthers coercion values c') :
    c'.exclude = c.exclude ∧ c'.maxFiles = c.maxFiles ∧ c'.maxFileSize = c.maxFileSize :=
  ⟨Except.ok.inj (h'.exclude.symm.trans h.exclude),
    Except.ok.inj (h'.maxFiles.symm.trans h.maxFiles),
    Except.ok.inj (h'.maxFileSize.symm.trans h.maxFileSize)⟩

/-- The values are read one by one. -/
theorem ofData_map_eq_ok_iff {c : ScanConfig} (h : find? workersKey values = some written) :
    ofData (.map values) coercion = .ok c ↔
      ReadsOthers coercion values c ∧
        Checked.intFrom coercion 1 written = .ok c.maxWorkers := by
  have hfield : (Data.map values).field? "max_workers".toList = some written := h
  have hcount : Checked.optional "max_workers" default.maxWorkers (Checked.intFrom coercion 1)
      (.map values) = .ok c.maxWorkers ↔ Checked.intFrom coercion 1 written = .ok c.maxWorkers :=
    Checked.optional_eq_ok_iff hfield
  rw [← hcount]
  constructor
  · intro hc
    obtain ⟨_, size, h₃, hsize, rfl⟩ := Checked.ap_ok_iff.mp hc
    obtain ⟨_, workers, h₂, hworkers, rfl⟩ := Checked.ap_ok_iff.mp h₃
    obtain ⟨_, files, h₁, hfiles, rfl⟩ := Checked.ap_ok_iff.mp h₂
    obtain ⟨_, exclude, h₀, hexclude, rfl⟩ := Checked.ap_ok_iff.mp h₁
    cases h₀
    exact ⟨⟨hexclude, hfiles, hsize⟩, hworkers⟩
  · rintro ⟨⟨hexclude, hfiles, hsize⟩, hworkers⟩
    simp only [ofData, Checked.record, Checked.start, hexclude, hfiles, hworkers, hsize, Checked.ap]

/-- Under a value of the variable only the number of workers is read from elsewhere. -/
theorem ofData_valuesWith_eq_ok_iff {c : ScanConfig} (h : find? workersKey values = some written)
    (setting : Option Text) :
    ofData (.map (valuesWith values setting)) coercion = .ok c ↔
      ReadsOthers coercion values c ∧
        Checked.intFrom coercion 1 (workersOr written setting) = .ok c.maxWorkers := by
  rw [ofData_map_eq_ok_iff (find?_valuesWith_workersKey h setting)]
  refine and_congr_left fun _ => ?_
  have hfield : ∀ name : String, sameKey workersKey (.text name.toList) = false →
      (Data.map (valuesWith values setting)).field? name.toList =
        (Data.map values).field? name.toList :=
    fun name hname => find?_valuesWith hname setting
  have hexclude := hfield "exclude" (by decide)
  have hfiles := hfield "max_files" (by decide)
  have hsize := hfield "max_file_size" (by decide)
  constructor
  · rintro ⟨h₁, h₂, h₃⟩
    exact ⟨Checked.optional_congr hexclude ▸ h₁, Checked.optional_congr hfiles ▸ h₂,
      Checked.optional_congr hsize ▸ h₃⟩
  · rintro ⟨h₁, h₂, h₃⟩
    exact ⟨Checked.optional_congr hexclude ▸ h₁, Checked.optional_congr hfiles ▸ h₂,
      Checked.optional_congr hsize ▸ h₃⟩

end

/-- Values that pass the check are the options, and for others the defaults stand. -/
theorem ofValues_eq_ok_iff {values : Values} {coercion : Coercion} {c : ScanConfig} :
    (ofValues values coercion).outcome = .ok c ↔
      ofData (.map values) coercion = .ok c ∨
        (∀ c', ofData (.map values) coercion ≠ .ok c') ∧ c = default := by
  unfold ofValues
  cases ofData (.map values) coercion with
  | ok c' => simp
  | error e => simp [bind_ok, Logged.warn, eq_comm]

/-! ## What the file says -/

theorem find?_congr {key key' : Data} (h : sameKey key key' = true) (m : List (Data × Data)) :
    find? key m = find? key' m := by
  induction m with
  | nil => rfl
  | cons e m ih =>
    obtain ⟨k, v⟩ := e
    simp only [find?, sameKey_comm k, sameKey_congr h, ih]

/-- An entry of the file for the number of workers takes the place of what stood for it, and any
other entry leaves it. -/
theorem find?_workersKey_of_setEntry {path : PathName} {values v : Values} {entry : Data × Data}
    (h : (setEntry path values entry).outcome = .ok v) {n : Int}
    (hn : find? workersKey values = some (.int n)) :
    find? workersKey v =
      if sameKey entry.1 workersKey = true then some entry.2 else some (.int n) := by
  by_cases hk : sameKey entry.1 workersKey = true
  · have hold : find? entry.1 values = some (.int n) := (find?_congr hk values).trans hn
    unfold setEntry at h
    rw [hold] at h
    obtain ⟨new, hnew, hv⟩ := outcome_bind_eq_ok_iff.mp h
    cases hnew
    cases hv
    rw [find?_insert, if_pos hk, if_pos hk]
  · rw [if_neg hk, find?_of_setEntry h (eq_false_of_ne_true hk), hn]

theorem find?_of_foldlM_setEntry {path : PathName} {entries : List (Data × Data)} {key : Data}
    (hne : ∀ e ∈ entries, sameKey e.1 key = false) {values v : Values}
    (h : (entries.foldlM (setEntry path) values).outcome = .ok v) :
    find? key v = find? key values := by
  induction entries generalizing values with
  | nil =>
    cases h
    rfl
  | cons e entries ih =>
    rw [List.forall_mem_cons] at hne
    rw [List.foldlM_cons] at h
    obtain ⟨values', hstep, h⟩ := outcome_bind_eq_ok_iff.mp h
    rw [ih hne.2 h, find?_of_setEntry hstep hne.1]

/-- What stands for the number of workers after the entries of the file: what they say of it. -/
theorem find?_workersKey_of_foldlM {path : PathName} {entries : List (Data × Data)}
    (hd : KeysDistinct entries) {values v : Values}
    (h : (entries.foldlM (setEntry path) values).outcome = .ok v) {n : Int}
    (hn : find? workersKey values = some (.int n)) :
    find? workersKey v = some ((find? workersKey entries).getD (.int n)) := by
  induction entries generalizing values with
  | nil =>
    cases h
    exact hn
  | cons e entries ih =>
    obtain ⟨hne, hd⟩ := List.pairwise_cons.mp hd
    rw [List.foldlM_cons] at h
    obtain ⟨values', hstep, h⟩ := outcome_bind_eq_ok_iff.mp h
    have hset := find?_workersKey_of_setEntry hstep hn
    by_cases hk : sameKey e.1 workersKey = true
    · -- no later entry has this key, so what this one sets stays
      have hlater : ∀ e' ∈ entries, sameKey e'.1 workersKey = false := by
        intro e' he'
        rw [sameKey_comm, ← sameKey_congr hk]
        exact hne e'.1 (List.mem_map_of_mem he')
      rw [find?_of_foldlM_setEntry hlater h, hset, if_pos hk, find?, if_pos hk]
      rfl
    · rw [if_neg hk] at hset
      rw [ih hd h hset, find?, if_neg hk]

/-! ## Loading -/

section

variable {t : FileTree} {root : PathName} {readers : Readers}

/-- What comes out under a value of the variable is read from the values of the file. -/
theorem load_eq_ok_iff {setting : Option Text} {c : ScanConfig} :
    (load t root setting readers).outcome = .ok c ↔
      ∃ entries values,
        (readEntries t (root.child fileName) readers.documents).outcome = .ok entries ∧
        (entries.foldlM (setEntry (root.child fileName)) defaultValues).outcome = .ok values ∧
        (ofValues (valuesWith values setting) readers.values).outcome = .ok c := by
  unfold load ofEntries
  simp only [outcome_bind_eq_ok_iff]
  constructor
  · rintro ⟨entries, hentries, values, hvalues, values', hset, hc⟩
    cases (outcome_setWorkers values setting).symm.trans hset
    exact ⟨entries, values, hentries, hvalues, hc⟩
  · rintro ⟨entries, values, hentries, hvalues, hc⟩
    exact ⟨entries, hentries, values, hvalues, _, outcome_setWorkers values setting, hc⟩

/-- The options that are loaded: those of one set of values, whatever the variable says, if the
number of workers and all else can be used, and the defaults if not. -/
theorem exists_values_of_load {setting : Option Text} {c : ScanConfig}
    (h : (load t root setting readers).outcome = .ok c) :
    ∃ values, ∀ setting' c', (load t root setting' readers).outcome = .ok c' →
      ReadsOthers readers.values values c' ∧
          Checked.intFrom readers.values 1
              (workersOr (writtenWorkers t root readers.documents) setting') =
            .ok c'.maxWorkers ∨
        (¬ ((∃ c'', ReadsOthers readers.values values c'') ∧
            IsWorkerCount readers.values
              (workersOr (writtenWorkers t root readers.documents) setting'))) ∧
          c' = default := by
  obtain ⟨entries, values, hentries, hvalues, -⟩ := load_eq_ok_iff.mp h
  have hwritten :
      find? workersKey values = some (writtenWorkers t root readers.documents) := by
    unfold writtenWorkers
    rw [hentries]
    exact find?_workersKey_of_foldlM (keysDistinct_of_readEntries hentries) hvalues rfl
  refine ⟨values, fun setting' c' h' => ?_⟩
  obtain ⟨entries', values', hentries', hvalues', hc'⟩ := load_eq_ok_iff.mp h'
  cases hentries.symm.trans hentries'
  cases hvalues.symm.trans hvalues'
  rcases ofValues_eq_ok_iff.mp hc' with hread | ⟨hno, rfl⟩
  · exact .inl ((ofData_valuesWith_eq_ok_iff hwritten setting').mp hread)
  · refine .inr ⟨?_, rfl⟩
    rintro ⟨⟨c'', hothers⟩, n, hn⟩
    refine hno { c'' with maxWorkers := n } ?_
    rw [ofData_valuesWith_eq_ok_iff hwritten setting']
    exact ⟨⟨hothers.exclude, hothers.maxFiles, hothers.maxFileSize⟩, hn⟩

/-- **Two values of the variable give the same options but for the number of workers**, if that
number can be used with both or with neither; there are options with one exactly if there are with
the other. With a number that cannot be used the options are the defaults, and with one that can the
number is that one, unless the options are the defaults. This holds for every way to read the file. -/
theorem load_sameButWorkers (t : FileTree) (root : PathName) (readers : Readers)
    (first second : Option Text) :
    ((∃ c, (load t root first readers).outcome = .ok c) ↔
        ∃ c, (load t root second readers).outcome = .ok c) ∧
      ∀ c c', (load t root first readers).outcome = .ok c →
          (load t root second readers).outcome = .ok c' →
        ((IsWorkerCount readers.values (workersOr (writtenWorkers t root readers.documents) first) ↔
            IsWorkerCount readers.values
              (workersOr (writtenWorkers t root readers.documents) second)) →
          c'.exclude = c.exclude ∧ c'.maxFiles = c.maxFiles ∧ c'.maxFileSize = c.maxFileSize) ∧
        (¬ IsWorkerCount readers.values
            (workersOr (writtenWorkers t root readers.documents) second) → c' = default) ∧
        (∀ n, Checked.intFrom readers.values 1
              (workersOr (writtenWorkers t root readers.documents) second) = .ok n →
          c'.maxWorkers = n ∨ c' = default) := by
  refine ⟨?_, fun c c' h h' => ?_⟩
  · rw [load_ok_iff, load_ok_iff]
  obtain ⟨values, hall⟩ := exists_values_of_load h
  have hfirst := hall first c h
  have hsecond := hall second c' h'
  refine ⟨fun hcount => ?_, fun hno => ?_, fun n hn => ?_⟩
  · rcases hfirst with ⟨hothers, hn⟩ | ⟨hnot, rfl⟩
    · rcases hsecond with ⟨hothers', -⟩ | ⟨hnot', -⟩
      · exact hothers.same hothers'
      · exact absurd ⟨⟨c, hothers⟩, hcount.mp ⟨_, hn⟩⟩ hnot'
    · rcases hsecond with ⟨hothers', hn'⟩ | ⟨-, rfl⟩
      · exact absurd ⟨⟨c', hothers'⟩, hcount.mpr ⟨_, hn'⟩⟩ hnot
      · exact ⟨rfl, rfl, rfl⟩
  · rcases hsecond with ⟨-, hn'⟩ | ⟨-, rfl⟩
    · exact absurd ⟨_, hn'⟩ hno
    · rfl
  · rcases hsecond with ⟨-, hn'⟩ | ⟨-, rfl⟩
    · exact .inl (Except.ok.inj (hn'.symm.trans hn))
    · exact .inr rfl

end

/-! ## A number that cannot be used -/

/-- A directory whose file with options leaves one name out. -/
def globsTree : FileTree where
  root := .dir [(fileName, .file (Utf8.encode "exclude: [q]".toList))]
  here := []

theorem eq_ok_of_toOption {ε α : Type} {x : Except ε α} {a : α} (h : x.toOption = some a) :
    x = .ok a := by
  cases x with
  | ok b => exact congrArg Except.ok (Option.some.inj h)
  | error e => cases h

theorem load_globsTree :
    (load globsTree ⟨.here, []⟩ none).outcome = .ok { default with exclude := [['q']] } :=
  eq_ok_of_toOption (by decide +kernel)

theorem load_globsTree_two :
    (load globsTree ⟨.here, []⟩ (some ['2'])).outcome =
      .ok { default with exclude := [['q']], maxWorkers := 2 } :=
  eq_ok_of_toOption (by decide +kernel)

theorem load_globsTree_zero :
    (load globsTree ⟨.here, []⟩ (some ['0'])).outcome = .ok default :=
  eq_ok_of_toOption (by decide +kernel)

/-- With a variable that asks for two workers, the globs of the file are the same as without. -/
theorem load_sameButWorkers_globs :
    ∃ c c', (load globsTree ⟨.here, []⟩ none).outcome = .ok c ∧
      (load globsTree ⟨.here, []⟩ (some ['2'])).outcome = .ok c' ∧
      c.exclude = [['q']] ∧ c'.exclude = c.exclude ∧ c'.maxFiles = c.maxFiles ∧
      c'.maxFileSize = c.maxFileSize ∧ c'.maxWorkers = 2 := by
  have hwritten : IsWorkerCount .lenient (workersOr (writtenWorkers globsTree ⟨.here, []⟩ .strict)
      none) := ⟨4, eq_ok_of_toOption (by decide +kernel)⟩
  have htwo : IsWorkerCount .lenient (workersOr (writtenWorkers globsTree ⟨.here, []⟩ .strict)
      (some ['2'])) := ⟨2, eq_ok_of_toOption (by decide +kernel)⟩
  obtain ⟨hsame, -, -⟩ := (load_sameButWorkers globsTree ⟨.here, []⟩ {} none (some ['2'])).2 _ _
    load_globsTree load_globsTree_two
  obtain ⟨hexclude, hfiles, hsize⟩ := hsame (iff_of_true hwritten htwo)
  exact ⟨_, _, load_globsTree, load_globsTree_two, rfl, hexclude, hfiles, hsize, rfl⟩

/-- A variable that asks for no workers at all undoes the globs of the file. -/
theorem load_loses_globs :
    ¬ ∀ (t : FileTree) (root : PathName) (setting : Text) (c c' : ScanConfig),
      (load t root none).outcome = .ok c → (load t root (some setting)).outcome = .ok c' →
        c'.exclude = c.exclude ∧ c'.maxFiles = c.maxFiles ∧ c'.maxFileSize = c.maxFileSize := by
  intro h
  have hglobs := (h _ _ _ _ _ load_globsTree load_globsTree_zero).1
  cases hglobs

end ScanConfig
end EnvAudit
