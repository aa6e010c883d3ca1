import EnvAudit.Dotenv.Example

/-!
# Reading an example

The line that an example has for a variable is read as the same variable with the placeholder for
its value (`ofLine_variableLine`), and no line of an example holds a line feed. So an example has,
line by line, the entries of the file that it was made of (`parse_exampleText`), and the example of
an example is that example itself.
-/
namespace EnvAudit

theorem takeWhile_append_of_head {α : Type} {f : α → Bool} {xs ys : List α}
    (hxs : ∀ x ∈ xs, f x = true) (hys : ∀ y ∈ ys.head?, f y = false) :
    (xs ++ ys).takeWhile f = xs := by
  rw [List.takeWhile_append_of_pos hxs]
  cases ys with
  | nil => simp
  | cons y ys => simp [hys y rfl]

theorem dropWhile_append_of_head {α : Type} {f : α → Bool} {xs ys : List α}
    (hxs : ∀ x ∈ xs, f x = true) (hys : ∀ y ∈ ys.head?, f y = false) :
    (xs ++ ys).dropWhile f = ys := by
  have hsplit := List.takeWhile_append_dropWhile (p := f) (l := xs ++ ys)
  rw [takeWhile_append_of_head hxs hys] at hsplit
  exact List.append_cancel_left hsplit

/-! ## Placeholders -/

/-- The values that stand for others in an example. -/
def placeholderValues : List Text := defaultPlaceholder :: PlaceholderRule.registry.map (·.value)

theorem placeholder_mem (name : Text) : placeholder name ∈ placeholderValues := by
  rw [placeholder, placeholderBy]
  split
  · rename_i rule h
    exact List.mem_cons_of_mem _ (List.mem_map_of_mem (List.mem_of_find?_eq_some h))
  · exact List.mem_cons_self

/-- Whether a text is not empty and one line, without blank ends. -/
def isPlainValue (v : Text) : Bool :=
  v != [] && !v.contains '\n' && v.head?.all (!isBlank ·) && v.getLast?.all (!isBlank ·)

theorem isPlainValue_iff {v : Text} :
    isPlainValue v = true ↔
      v ≠ [] ∧ '\n' ∉ v ∧ (∀ c ∈ v.head?, isBlank c = false) ∧
        ∀ c ∈ v.getLast?, isBlank c = false := by
  simp [isPlainValue, Option.all_eq_true, and_assoc]

theorem isPlainValue_placeholderValues : placeholderValues.all isPlainValue = true := by
  decide

/-- A placeholder is one line without blank ends. -/
theorem placeholder_plain (name : Text) :
    placeholder name ≠ [] ∧ '\n' ∉ placeholder name ∧
      (∀ c ∈ (placeholder name).head?, isBlank c = false) ∧
      ∀ c ∈ (placeholder name).getLast?, isBlank c = false := by
  refine isPlainValue_iff.mp (List.all_eq_true.mp isPlainValue_placeholderValues _ ?_)
  exact placeholder_mem name

namespace EnvEntry

/-! ## Keys -/

/-- Whether a text can be the key of a variable. -/
structure IsKey (k : Text) : Prop where
  start : ∃ c ∈ k.head?, isKeyStart c = true
  chars : ∀ c ∈ k, isKeyChar c = true

theorem isKeyChar_blankCodes : ∀ n ∈ blankCodes, isKeyChar (Char.ofNat n) = false := by
  decide +kernel

/-- No blank character is one of a key. -/
theorem isBlank_of_isKeyChar {c : Char} (h : isKeyChar c = true) : isBlank c = false := by
  rw [Bool.eq_false_iff]
  intro hb
  have hc := isKeyChar_blankCodes c.toNat (toNat_mem_blankCodes hb)
  rw [Char.ofNat_toNat, h] at hc
  cases hc

theorem isKey_of_assignment? {line k v : Text} (h : assignment? line = some (k, v)) : IsKey k := by
  simp only [assignment?] at h
  split at h
  · rename_i c _ _ hk _
    split at h
    · rename_i hc
      cases h
      refine ⟨⟨c, by rw [hk]; rfl, hc⟩, fun x hx => ?_⟩
      exact List.all_eq_true.mp List.all_takeWhile x hx
    · cases h
  · cases h

/-! ## The line of a variable -/

/-- The line of a variable in an example. -/
def variableLine (k : Text) : Text := k ++ '=' :: placeholder k

section

variable {k : Text}

theorem IsKey.isBlank_head (hk : IsKey k) : ∀ c ∈ (variableLine k).head?, isBlank c = false := by
  obtain ⟨c, hc, -⟩ := hk.start
  obtain ⟨rest, rfl⟩ := List.head?_eq_some_iff.mp hc
  intro d hd
  cases hd
  exact isBlank_of_isKeyChar (hk.chars c List.mem_cons_self)

theorem isBlank_last (k : Text) : ∀ c ∈ (variableLine k).getLast?, isBlank c = false := by
  obtain ⟨hne, -, -, hlast⟩ := placeholder_plain k
  intro c hc
  rw [variableLine, List.getLast?_append, List.getLast?_cons_of_ne_nil hne] at hc
  exact hlast c (by simpa [List.getLast?_eq_some_getLast hne] using hc)

theorem strip_variableLine (hk : IsKey k) : Text.strip (variableLine k) = variableLine k :=
  Text.strip_eq_self hk.isBlank_head (isBlank_last k)

theorem strip_placeholder (k : Text) : Text.strip (placeholder k) = placeholder k := by
  obtain ⟨-, -, hhead, hlast⟩ := placeholder_plain k
  exact Text.strip_eq_self hhead hlast

theorem assignment?_variableLine (hk : IsKey k) :
    assignment? (variableLine k) = some (k, placeholder k) := by
  have htake : (variableLine k).takeWhile isKeyChar = k :=
    takeWhile_append_of_head hk.chars fun c hc => by
      cases hc
      decide
  have hdrop : Text.stripLeft ((variableLine k).drop k.length) = '=' :: placeholder k := by
    rw [variableLine, List.drop_left]
    exact Text.stripLeft_eq_self fun c hc => by
      cases hc
      decide
  obtain ⟨c, hc, hs⟩ := hk.start
  obtain ⟨rest, hrest⟩ := List.head?_eq_some_iff.mp hc
  simp only [assignment?, Text.stripLeft_eq_self hk.isBlank_head, htake, hdrop]
  subst hrest
  simp [hs, strip_placeholder]

/-- **The line of a variable in an example is read as that variable**, with its placeholder. -/
theorem ofLine_variableLine (hk : IsKey k) (n : Nat) :
    ofLine n (variableLine k) =
      ⟨.assignment, variableLine k, n, some k, some (placeholder k)⟩ := by
  rw [ofLine, strip_variableLine hk, assignment?_variableLine hk]
  split
  · rename_i h
    simp [variableLine] at h
  · rename_i h
    obtain ⟨c, hc, -⟩ := hk.start
    obtain ⟨rest, rfl⟩ := List.head?_eq_some_iff.mp hc
    have hkey := hk.chars c List.mem_cons_self
    cases h
    exact absurd hkey (by decide)
  · rfl

end

/-! ## The lines of an example -/

/-- The entry that an entry becomes in an example: a variable keeps its key and gets a placeholder
for its value, and all else stays as it is. -/
def toExample (e : EnvEntry) : EnvEntry :=
  if e.isVariable then { e with raw := e.exampleLine, value := e.key.map placeholder } else e

/-- What is read from a line is a variable with a key, or else its own line in an example. -/
theorem ofLine_cases (n : Nat) (line : Text) :
    (∃ k v, IsKey k ∧ ofLine n line = ⟨.assignment, line, n, some k, some v⟩) ∨
      (ofLine n line).isVariable = false := by
  unfold ofLine
  split
  · exact .inr rfl
  · exact .inr rfl
  · split
    · rename_i k v h
      exact .inl ⟨k, v, isKey_of_assignment? h, rfl⟩
    · exact .inr rfl

theorem exampleLine_of_isVariable_eq_false {e : EnvEntry} (h : e.isVariable = false) :
    e.exampleLine = e.raw := by
  simp [exampleLine, exampleLine?, h]

/-- The line of an example is read as the entry that it was made of, with the placeholder. -/
theorem ofLine_exampleLine (n : Nat) (line : Text) :
    ofLine n (ofLine n line).exampleLine = (ofLine n line).toExample := by
  rcases ofLine_cases n line with ⟨k, v, hk, h⟩ | h
  · rw [h]
    exact ofLine_variableLine hk n
  · rw [exampleLine_of_isVariable_eq_false h, raw_ofLine, toExample, h]
    rfl

theorem not_mem_exampleLine {line : Text} (h : '\n' ∉ line) (n : Nat) :
    '\n' ∉ (ofLine n line).exampleLine := by
  rcases ofLine_cases n line with ⟨k, v, hk, he⟩ | he
  · rw [he]
    obtain ⟨-, hno, -, -⟩ := placeholder_plain k
    have hkey : '\n' ∉ k := fun hm => absurd (hk.chars _ hm) (by decide)
    change '\n' ∉ k ++ '=' :: placeholder k
    simp [hkey, hno]
  · rwa [exampleLine_of_isVariable_eq_false he, raw_ofLine]

/-! ## Files rewritten line by line -/

theorem mem_ofLines {n : Nat} {lines : List Text} {e : EnvEntry} (h : e ∈ ofLines n lines) :
    ∃ m, ∃ line ∈ lines, e = ofLine m line := by
  induction lines generalizing n with
  | nil => simp [ofLines] at h
  | cons line lines ih =>
    rcases List.mem_cons.mp h with rfl | h
    · exact ⟨n, line, List.mem_cons_self, rfl⟩
    · obtain ⟨m, l, hl, he⟩ := ih h
      exact ⟨m, l, List.mem_cons_of_mem _ hl, he⟩

theorem getElem?_ofLines {lines : List Text} {i : Nat} {line : Text} (h : lines[i]? = some line)
    (n : Nat) : (ofLines n lines)[i]? = some (ofLine (n + i) line) := by
  induction lines generalizing n i with
  | nil => simp at h
  | cons l lines ih =>
    cases i with
    | zero =>
      obtain rfl : l = line := Option.some.inj h
      rfl
    | succ i => rw [ofLines, List.getElem?_cons_succ, ih h, Nat.add_assoc, Nat.add_comm 1]

section

variable {newLine : EnvEntry → Text}
  (hline : ∀ n line, '\n' ∉ line → '\n' ∉ newLine (ofLine n line))
include hline

/-- Where every entry gets a new line, these are the lines of the new file. -/
theorem lines_join_parse (c : Text) :
    Text.lines (Text.join ['\n'] ((parse c).map newLine)) = (parse c).map newLine := by
  have hne : (parse c).map newLine ≠ [] := by
    intro h
    have hraw := map_raw_ofLines 1 (Text.lines c)
    rw [← parse, List.map_eq_nil_iff.mp h] at hraw
    exact Text.splitOn_ne_nil '\n' c hraw.symm
  refine Text.splitOn_join hne fun line hl => ?_
  obtain ⟨e, he, rfl⟩ := List.mem_map.mp hl
  obtain ⟨m, l, hmem, rfl⟩ := mem_ofLines he
  exact hline m l (Text.not_mem_of_mem_splitOn hmem)

/-- What is known of the new line of each entry is known of the new file. -/
theorem parse_join_parse {newEntry : EnvEntry → EnvEntry}
    (hentry : ∀ n line, ofLine n (newLine (ofLine n line)) = newEntry (ofLine n line)) (c : Text) :
    parse (Text.join ['\n'] ((parse c).map newLine)) = (parse c).map newEntry := by
  have hlines : ∀ (n : Nat) (lines : List Text),
      ofLines n ((ofLines n lines).map newLine) = (ofLines n lines).map newEntry := by
    intro n lines
    induction lines generalizing n with
    | nil => rfl
    | cons line lines ih => simp only [ofLines, List.map_cons, hentry, ih]
  rw [parse, lines_join_parse hline]
  exact hlines 1 (Text.lines c)

end

/-- Entries that stay variables or none and keep their keys have the same keys in the same order. -/
theorem keys_map {newEntry : EnvEntry → EnvEntry}
    (hkept : ∀ e, (newEntry e).isVariable = e.isVariable ∧ (newEntry e).key = e.key)
    (entries : List EnvEntry) : keys (entries.map newEntry) = keys entries := by
  have hvariable : isVariable ∘ newEntry = isVariable := funext fun e => (hkept e).1
  have hkey : key ∘ newEntry = key := funext fun e => (hkept e).2
  rw [keys, List.filter_map, List.filterMap_map, hvariable, hkey]
  rfl

/-- The lines of an example are those of its entries, one each. -/
theorem lines_exampleText (c : Text) :
    Text.lines (exampleText (parse c)) = (parse c).map exampleLine :=
  lines_join_parse (fun n _ h => not_mem_exampleLine h n) c

/-- **An example has the entries of its file**, the variables with placeholders. -/
theorem parse_exampleText (c : Text) :
    parse (exampleText (parse c)) = (parse c).map toExample :=
  parse_join_parse (fun n _ h => not_mem_exampleLine h n) ofLine_exampleLine c

/-! ## Examples of examples -/

/-- Whether an entry is what another becomes in an example, as far as a reader of it can tell. -/
structure IsExampleOf (old new : EnvEntry) : Prop where
  kind : new.kind = old.kind
  lineNumber : new.lineNumber = old.lineNumber
  key : new.key = old.key
  raw : old.isVariable = false → new.raw = old.raw
  value : old.isVariable = true → ∃ k, old.key = some k ∧ new.value = some (placeholder k)

theorem exampleLine_toExample (e : EnvEntry) : e.toExample.exampleLine = e.exampleLine := by
  obtain ⟨kind, raw, n, key, value⟩ := e
  cases kind <;> cases key <;> rfl

theorem isExampleOf_toExample (n : Nat) (line : Text) :
    IsExampleOf (ofLine n line) (ofLine n line).toExample := by
  rcases ofLine_cases n line with ⟨k, v, -, h⟩ | h
  · rw [h]
    exact ⟨rfl, rfl, rfl, fun hno => (by cases hno), fun _ => ⟨k, rfl, rfl⟩⟩
  · have he : (ofLine n line).toExample = ofLine n line := by
      rw [toExample, h]
      rfl
    rw [he]
    exact ⟨rfl, rfl, rfl, fun _ => rfl, fun hv => absurd hv (by simp [h])⟩

/-- **Reading an example gives the entries of its file back**, as many, each of its kind, with its
number and its key, the variables with placeholders; and the example of an example is the same. -/
theorem reparse_example (c : Text) :
    ∃ e : Text, example? (parse c) = some e ∧ (parse e).length = (parse c).length ∧
      (∀ (i : Nat) (old new : EnvEntry), (parse c)[i]? = some old → (parse e)[i]? = some new →
        IsExampleOf old new) ∧
      example? (parse e) = some e := by
  refine ⟨_, example?_parse c, ?_, fun i old new hold hnew => ?_, ?_⟩
  · rw [parse_exampleText, List.length_map]
  · rw [parse_exampleText, List.getElem?_map, hold] at hnew
    cases hnew
    obtain ⟨m, line, -, rfl⟩ := mem_ofLines (List.mem_of_getElem? hold)
    exact isExampleOf_toExample m line
  · rw [example?_parse]
    refine congrArg some ?_
    rw [parse_exampleText, exampleText, exampleText, List.map_map]
    exact congrArg _ (List.map_congr_left fun e _ => exampleLine_toExample e)

end EnvEntry
end EnvAudit
