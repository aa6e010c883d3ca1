import EnvAudit.Proofs.FirstEquals

/-!
# Files entry by entry

An environment file and its entries are two forms of the same lines. Reading undoes rendering and
rendering undoes reading, and a file may be cut at a line feed and read in two parts
(`parse_line_by_line`). Each line is read on its own, and its kind and key stand in front of the
value, so that other values give the same keys and the same example (`example_revalue`).
-/
namespace EnvAudit.EnvEntry

/-! ## Parts of a file -/

/-- The entry in a file that has `n` lines more above it. -/
def movedDown (n : Nat) (e : EnvEntry) : EnvEntry := { e with lineNumber := e.lineNumber + n }

theorem ofLine_add (k n : Nat) (line : Text) :
    ofLine (k + n) line = (ofLine k line).movedDown n := by
  unfold ofLine
  split
  · simp [movedDown]
  · simp [movedDown]
  · split <;> simp [movedDown]

theorem ofLines_add (k n : Nat) (lines : List Text) :
    ofLines (k + n) lines = (ofLines k lines).map (movedDown n) := by
  induction lines generalizing k with
  | nil => rfl
  | cons line lines ih =>
    rw [ofLines, ofLines, List.map_cons, ofLine_add, Nat.add_right_comm, ih]

theorem ofLines_append (k : Nat) (above below : List Text) :
    ofLines k (above ++ below) = ofLines k above ++ ofLines (k + above.length) below := by
  induction above generalizing k with
  | nil => rfl
  | cons line above ih =>
    rw [List.cons_append, ofLines, ofLines, ih, List.cons_append, List.length_cons, Nat.add_assoc k,
      Nat.add_comm 1]

/-- The entries of a file that is cut at a line feed are those of its two parts. -/
theorem parse_append (above below : Text) :
    parse (above ++ '\n' :: below) =
      parse above ++ (parse below).map (movedDown (Text.lines above).length) := by
  have hlines : Text.lines (above ++ '\n' :: below) = Text.lines above ++ Text.lines below :=
    Text.splitOn_append '\n' above below
  rw [parse, hlines, ofLines_append, ofLines_add]
  rfl

/-! ## Entries that are rendered -/

/-- Only the lines of entries are rendered, and they are read again. -/
theorem parse_render {entries : List EnvEntry} (hne : entries ≠ [])
    (hraw : ∀ e ∈ entries, '\n' ∉ e.raw) :
    parse (render entries) = ofLines 1 (entries.map raw) := by
  have hlines : Text.lines (render entries) = entries.map raw := by
    apply Text.splitOn_join
    · simpa using hne
    · simpa using hraw
  rw [parse, hlines]

theorem lineNumber_ofLine (n : Nat) (line : Text) : (ofLine n line).lineNumber = n := by
  unfold ofLine
  split <;> try rfl
  split <;> rfl

theorem map_lineNumber_ofLines (n : Nat) (lines : List Text) :
    (ofLines n lines).map lineNumber = (List.range' n lines.length).map Int.ofNat := by
  induction lines generalizing n with
  | nil => rfl
  | cons line lines ih =>
    rw [ofLines, List.map_cons, lineNumber_ofLine, ih, List.length_cons, List.range'_succ,
      List.map_cons]
    rfl

/-- **An environment file is read line by line, and nothing is lost.** The entries of a file that is
cut at a line feed are those of its parts, the lower ones moved down by the lines above; rendering
the entries of a file gives the file back; and entries of one line each that are rendered are read
as the same lines in order, numbered from 1. -/
theorem parse_line_by_line :
    (∀ above below : Text, parse (above ++ '\n' :: below) =
      parse above ++ (parse below).map (movedDown (Text.lines above).length)) ∧
    (∀ content : Text, render (parse content) = content) ∧
    ∀ entries : List EnvEntry, entries ≠ [] → (∀ e ∈ entries, '\n' ∉ e.raw) →
      (parse (render entries)).map raw = entries.map raw ∧
        (parse (render entries)).map lineNumber =
          (List.range' 1 entries.length).map Int.ofNat := by
  refine ⟨parse_append, render_parse, fun entries hne hraw => ?_⟩
  rw [parse_render hne hraw, map_raw_ofLines, map_lineNumber_ofLines, List.length_map]
  exact ⟨rfl, rfl⟩

/-- Entries that were not read from a file: kinds and numbers are wrong, and a blank line is last. -/
def strayEntries : List EnvEntry :=
  [⟨.comment, "A=1".toList, 7, none, none⟩, ⟨.assignment, "#".toList, 7, none, none⟩,
    ⟨.comment, [], 0, some "B".toList, none⟩]

/-- Stray entries are read as their lines. -/
theorem parse_render_strayEntries :
    (strayEntries ≠ [] ∧ ∀ e ∈ strayEntries, '\n' ∉ e.raw) ∧
      (parse (render strayEntries)).map raw = ["A=1".toList, "#".toList, []] ∧
      (parse (render strayEntries)).map lineNumber = [1, 2, 3] := by
  have hne : strayEntries ≠ [] := by decide
  have hraw : ∀ e ∈ strayEntries, '\n' ∉ e.raw := by decide
  exact ⟨⟨hne, hraw⟩, parse_line_by_line.2.2 strayEntries hne hraw⟩

/-! ## Other values -/

/-- The line of an entry, with another text behind its first equals sign if it is a variable and
there is one for its line. -/
def withValue (new : Int → Option Text) (e : EnvEntry) : Text :=
  match new e.lineNumber with
  | some value => if e.isVariable then beforeEquals e.raw ++ '=' :: value else e.raw
  | none => e.raw

/-- A file with other texts behind the first equals signs of some of its variables. -/
def revalue (new : Int → Option Text) (content : Text) : Text :=
  Text.join ['\n'] ((parse content).map (withValue new))

/-- The entry of that line: a variable gets the new value, stripped, and keeps all else. -/
def revalued (new : Int → Option Text) (e : EnvEntry) : EnvEntry :=
  { e with
    raw := withValue new e
    value := if e.isVariable then (new e.lineNumber).elim e.value fun v => some (Text.strip v)
      else e.value }

section

variable {before line : Text}

/-- A text with an equals sign is not blank. -/
theorem strip_ne_nil_of_sign (before after : Text) :
    Text.strip (before ++ '=' :: after) ≠ [] := by
  intro h
  obtain ⟨front, back, hfront, hback, hline⟩ := Text.exists_strip (before ++ '=' :: after)
  rw [h, List.append_nil] at hline
  have hsign : '=' ∈ front ++ back := by simp [← hline]
  rcases List.mem_append.mp hsign with hm | hm
  · exact not_mem_of_blank hfront hm
  · exact not_mem_of_blank hback hm

/-- A key in front of the first equals sign makes a variable, whatever stands behind the sign. -/
theorem ofLine_of_isKey (hno : '=' ∉ before) (hk : IsKey (Text.strip before)) (n : Nat)
    (after : Text) :
    ofLine n (before ++ '=' :: after) =
      ⟨.assignment, before ++ '=' :: after, n, some (Text.strip before),
        some (Text.strip after)⟩ := by
  have hcut : '=' ∈ before ++ '=' :: after ∧
      isKeyText (Text.strip (beforeEquals (before ++ '=' :: after))) = true := by
    rw [beforeEquals_append hno]
    exact ⟨by simp, isKeyText_iff.mpr hk⟩
  rw [ofLine_eq_cutAtEquals, cutAtEquals, if_neg (strip_ne_nil_of_sign before after), if_pos hcut,
    beforeEquals_append hno, afterEquals_append hno]

/-- The line of a variable has a key in front of its first equals sign. -/
theorem exists_of_isVariable {n : Nat} (h : (ofLine n line).isVariable = true) :
    ∃ before after, line = before ++ '=' :: after ∧ '=' ∉ before ∧ IsKey (Text.strip before) := by
  rw [ofLine_eq_cutAtEquals, cutAtEquals] at h
  split at h
  · cases h
  · split at h
    · rename_i hcut
      obtain ⟨before, after, rfl, hno⟩ := List.eq_append_cons_of_mem hcut.1
      rw [beforeEquals_append hno] at hcut
      exact ⟨before, after, rfl, hno, isKeyText_iff.mp hcut.2⟩
    · cases h

end

section

variable (new : Int → Option Text)

theorem withValue_of_isVariable_eq_false {e : EnvEntry} (h : e.isVariable = false) :
    withValue new e = e.raw := by
  unfold withValue
  split <;> simp [h]

theorem revalued_of_isVariable_eq_false {e : EnvEntry} (h : e.isVariable = false) :
    revalued new e = e := by
  rw [revalued, withValue_of_isVariable_eq_false new h, h]
  rfl

@[simp] theorem isVariable_revalued (e : EnvEntry) : (revalued new e).isVariable = e.isVariable :=
  rfl

@[simp] theorem key_revalued (e : EnvEntry) : (revalued new e).key = e.key := rfl

/-- **A line with another value is read as the same variable**, with that value. -/
theorem ofLine_withValue (n : Nat) (line : Text) :
    ofLine n (withValue new (ofLine n line)) = revalued new (ofLine n line) := by
  cases h : (ofLine n line).isVariable with
  | true =>
    obtain ⟨before, after, rfl, hno, hk⟩ := exists_of_isVariable h
    have hold := ofLine_of_isKey hno hk n after
    rw [revalued, withValue, hold]
    cases new n with
    | none => simp [hold]
    | some v => simp [isVariable, beforeEquals_append hno, ofLine_of_isKey hno hk n v]
  | false =>
    rw [revalued_of_isVariable_eq_false new h, withValue_of_isVariable_eq_false new h, raw_ofLine]

theorem not_mem_withValue {new : Int → Option Text} (hnew : ∀ n, ∀ v ∈ new n, '\n' ∉ v) (n : Nat)
    {line : Text} (h : '\n' ∉ line) : '\n' ∉ withValue new (ofLine n line) := by
  unfold withValue
  split
  · rename_i v hv
    split
    · have hbefore : '\n' ∉ beforeEquals line := fun hm => h ((List.takeWhile_prefix _).subset hm)
      simp [hbefore, hnew _ v hv]
    · simpa using h
  · simpa using h

theorem parse_revalue (hnew : ∀ n, ∀ v ∈ new n, '\n' ∉ v) (content : Text) :
    parse (revalue new content) = (parse content).map (revalued new) :=
  parse_join_parse (fun n _ h => not_mem_withValue hnew n h) (ofLine_withValue new) content

/-- An example does not show values. -/
theorem exampleLine?_revalued (e : EnvEntry) :
    exampleLine? (revalued new e) = exampleLine? e := by
  cases h : e.isVariable with
  | true => simp [exampleLine?, h]
  | false => rw [revalued_of_isVariable_eq_false new h]

theorem example?_map_revalued (entries : List EnvEntry) :
    example? (entries.map (revalued new)) = example? entries := by
  have hline : exampleLine? ∘ revalued new = exampleLine? := funext (exampleLine?_revalued new)
  rw [example?, example?, List.mapM_map, hline]

/-- **Values do not flow into an example.** Whatever stands behind the first equals signs of the
lines that set variables, on as many of them as one likes, the example and the keys are the same. -/
theorem example_revalue (hnew : ∀ n, ∀ v ∈ new n, '\n' ∉ v) (content : Text) :
    (∃ e : Text, example? (parse content) = some e ∧ example? (parse (revalue new content)) = some e) ∧
      keys (parse (revalue new content)) = keys (parse content) := by
  rw [parse_revalue new hnew, example?_map_revalued]
  refine ⟨⟨_, example?_parse content, example?_parse content⟩, ?_⟩
  exact keys_map (fun e => ⟨isVariable_revalued new e, key_revalued new e⟩) (parse content)

end

/-- A file with two variables, the first behind white space. -/
def twoVariables : Text := " A = x\n# B=y\nB=y".toList

/-- A new value for the first variable that looks like a comment and an assignment, and one for the
comment, which is none. -/
def oddValues (n : Int) : Option Text :=
  if n = 1 then some "#C=\" ".toList else if n = 2 then some "z".toList else none

/-- Odd values change the file and nothing that is shown of it. -/
theorem example_revalue_oddValues :
    (∀ n, ∀ v ∈ oddValues n, '\n' ∉ v) ∧
      revalue oddValues twoVariables = " A =#C=\" \n# B=y\nB=y".toList ∧
      (∃ e : Text, example? (parse twoVariables) = some e ∧
        example? (parse (revalue oddValues twoVariables)) = some e) ∧
      keys (parse (revalue oddValues twoVariables)) = keys (parse twoVariables) := by
  have hodd : ∀ n, ∀ v ∈ oddValues n, '\n' ∉ v := by
    intro n v hv
    rw [oddValues] at hv
    split at hv
    · cases hv
      decide
    · split at hv
      · cases hv
        decide
      · cases hv
  exact ⟨hodd, by decide, example_revalue oddValues hodd twoVariables⟩

end EnvAudit.EnvEntry
