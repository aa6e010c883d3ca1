import EnvAudit.Proofs.ExampleReparse
import EnvAudit.Proofs.KeyLetters

/-!
# Lines and their first equals signs

A line of an environment file is read by its first equals sign: if what stands before it is a key
but for white space, the line is a variable with that key, and what stands behind it is the value;
all other lines are empty or comments. `parse_eq_map_cutAtEquals` says so of whole files. Further
equals signs belong to the value, and so does any white space inside of it.
-/
namespace EnvAudit

namespace EnvEntry

/-! ## Keys -/

/-- Whether a text is a key, said letter by letter: a letter or an underscore, and then letters,
digits of ASCII, and underscores. -/
def isKeyText : Text → Bool
  | [] => false
  | c :: rest =>
    (isLetter c || c == '_') && rest.all fun d => isLetter d || isAsciiDigit d || d == '_'
where
  /-- A letter of ASCII or a look-alike of one. -/
  isLetter (c : Char) : Bool := c.isAlpha || lookAlikes.contains c

theorem isKeyLetter_eq (c : Char) : isKeyLetter c = isKeyText.isLetter c := by
  rw [Bool.eq_iff_iff, isKeyLetter_iff]
  simp [isKeyText.isLetter]

theorem isKeyText_iff {k : Text} : isKeyText k = true ↔ IsKey k := by
  cases k with
  | nil =>
    refine iff_of_false (fun h => by cases h) fun h => ?_
    obtain ⟨c, hc, -⟩ := h.start
    cases hc
  | cons c rest =>
    have hchar : ∀ d, isKeyChar d = (isKeyText.isLetter d || isAsciiDigit d || d == '_') := by
      intro d
      rw [isKeyChar, isKeyStart, isKeyLetter_eq, Bool.or_right_comm]
    simp only [isKeyText, ← hchar, Bool.and_eq_true, List.all_eq_true, ← isKeyLetter_eq c]
    constructor
    · rintro ⟨hstart, hrest⟩
      refine ⟨⟨c, rfl, hstart⟩, ?_⟩
      rw [List.forall_mem_cons]
      exact ⟨isKeyChar_of_isKeyStart hstart, hrest⟩
    · rintro ⟨⟨d, hd, hstart⟩, hchars⟩
      cases hd
      exact ⟨hstart, fun d hd => hchars d (List.mem_cons_of_mem _ hd)⟩

theorem IsKey.strip {k : Text} (hk : IsKey k) : Text.strip k = k :=
  Text.strip_eq_self (fun c hc => isBlank_of_isKeyChar (hk.chars c (List.mem_of_mem_head? hc)))
    fun c hc => isBlank_of_isKeyChar (hk.chars c (List.mem_of_mem_getLast? hc))

/-! ## Assignments -/

section

variable {front back k v after line : Text}

theorem not_mem_of_blank (h : ∀ c ∈ front, isBlank c = true) : '=' ∉ front :=
  fun hm => absurd (h '=' hm) (by decide)

/-- A key between white space and an equals sign is assigned what stands behind the sign. -/
theorem assignment?_of_isKey (hk : IsKey k) (hfront : ∀ c ∈ front, isBlank c = true)
    (hback : ∀ c ∈ back, isBlank c = true) :
    assignment? (front ++ k ++ back ++ '=' :: after) = some (k, Text.strip after) := by
  obtain ⟨c, hc, hstart⟩ := hk.start
  obtain ⟨rest, rfl⟩ := List.head?_eq_some_iff.mp hc
  have hleft : Text.stripLeft (front ++ (c :: rest) ++ back ++ '=' :: after) =
      c :: rest ++ (back ++ '=' :: after) := by
    rw [List.append_assoc, List.append_assoc, Text.stripLeft_append hfront]
    refine Text.stripLeft_eq_self fun d hd => ?_
    cases hd
    exact isBlank_of_isKeyChar (hk.chars c List.mem_cons_self)
  have htake : (c :: rest ++ (back ++ '=' :: after)).takeWhile isKeyChar = c :: rest := by
    refine takeWhile_append_of_head hk.chars fun d hd => ?_
    rw [Bool.eq_false_iff]
    intro hkey
    cases back with
    | nil =>
      cases hd
      exact absurd hkey (by decide)
    | cons b back =>
      cases hd
      have hblank := hback d List.mem_cons_self
      rw [isBlank_of_isKeyChar hkey] at hblank
      cases hblank
  have hsign : Text.stripLeft (back ++ '=' :: after) = '=' :: after := by
    rw [Text.stripLeft_append hback]
    refine Text.stripLeft_eq_self fun d hd => ?_
    cases hd
    decide
  simp only [assignment?, hleft, htake, List.drop_left, hsign]
  rw [if_pos hstart]

/-- An assignment is white space, a key, white space, an equals sign, and the value. -/
theorem exists_of_assignment? (h : assignment? line = some (k, v)) :
    ∃ front back after, (∀ c ∈ front, isBlank c = true) ∧ (∀ c ∈ back, isBlank c = true) ∧
      line = front ++ k ++ back ++ '=' :: after ∧ Text.strip after = v := by
  obtain ⟨front, hfront, hline⟩ := Text.exists_stripLeft line
  have hkey := List.prefix_iff_eq_append.mp
    (List.takeWhile_prefix (l := Text.stripLeft line) isKeyChar)
  obtain ⟨back, hback, hrest⟩ := Text.exists_stripLeft
    ((Text.stripLeft line).drop ((Text.stripLeft line).takeWhile isKeyChar).length)
  simp only [assignment?] at h
  generalize (Text.stripLeft line).takeWhile isKeyChar = key at hkey hrest h
  generalize Text.stripLeft ((Text.stripLeft line).drop key.length) = rest at hrest h
  split at h
  · rename_i c key after
    split at h
    · cases h
      refine ⟨front, back, after, hfront, hback, ?_, rfl⟩
      rw [hline, ← hkey, hrest]
      simp
    · cases h
  · cases h

/-- **What a line assigns stands at the two sides of its first equals sign.** -/
theorem assignment?_eq_some_iff : assignment? line = some (k, v) ↔
    ∃ before after, line = before ++ '=' :: after ∧ '=' ∉ before ∧ Text.strip before = k ∧ IsKey k ∧
      Text.strip after = v := by
  constructor
  · intro h
    have hk := isKey_of_assignment? h
    obtain ⟨front, back, after, hfront, hback, hline, hv⟩ := exists_of_assignment? h
    refine ⟨front ++ k ++ back, after, hline, ?_, ?_, hk, hv⟩
    · have hsign : '=' ∉ k := fun hm => absurd (hk.chars '=' hm) (by decide)
      simp [hsign, not_mem_of_blank hfront, not_mem_of_blank hback]
    · rw [Text.strip_append hfront hback, hk.strip]
  · rintro ⟨before, after, rfl, -, rfl, hk, rfl⟩
    obtain ⟨front, back, hfront, hback, hbefore⟩ := Text.exists_strip before
    have h : assignment? (front ++ Text.strip before ++ back ++ '=' :: after) = _ :=
      assignment?_of_isKey hk hfront hback
    rwa [← hbefore] at h

end

/-! ## The first equals sign -/

/-- What stands before the first equals sign of a line, or all of it if it has none. -/
def beforeEquals (line : Text) : Text := line.takeWhile (· != '=')

/-- What stands behind the first equals sign of a line. -/
def afterEquals (line : Text) : Text := line.drop ((beforeEquals line).length + 1)

section

variable {before : Text} (h : '=' ∉ before) (after : Text)
include h

theorem beforeEquals_append : beforeEquals (before ++ '=' :: after) = before := by
  refine takeWhile_append_of_head (fun c hc => ?_) fun c hc => ?_
  · rw [bne_iff_ne]
    rintro rfl
    exact h hc
  · cases hc
    rfl

theorem afterEquals_append : afterEquals (before ++ '=' :: after) = after := by
  rw [afterEquals, beforeEquals_append h, ← List.drop_drop, List.drop_left]
  rfl

end

theorem assignment?_eq_ite (line : Text) : assignment? line =
    if '=' ∈ line ∧ isKeyText (Text.strip (beforeEquals line)) = true then
      some (Text.strip (beforeEquals line), Text.strip (afterEquals line))
    else none := by
  cases h : assignment? line with
  | none =>
    refine (if_neg ?_).symm
    rintro ⟨hmem, hkey⟩
    obtain ⟨before, after, rfl, hno⟩ := List.eq_append_cons_of_mem hmem
    rw [beforeEquals_append hno, isKeyText_iff] at hkey
    rw [assignment?_eq_some_iff.mpr ⟨before, after, rfl, hno, rfl, hkey, rfl⟩] at h
    cases h
  | some kv =>
    obtain ⟨k, v⟩ := kv
    obtain ⟨before, after, rfl, hno, rfl, hk, rfl⟩ := assignment?_eq_some_iff.mp h
    rw [beforeEquals_append hno, afterEquals_append hno, if_pos]
    exact ⟨by simp, isKeyText_iff.mpr hk⟩

/-- A line that starts with a number sign assigns nothing. -/
theorem assignment?_of_numberSign {line rest : Text} (h : Text.strip line = '#' :: rest) :
    assignment? line = none := by
  obtain ⟨front, back, hfront, -, hline⟩ := Text.exists_strip line
  have hleft : Text.stripLeft line = '#' :: (rest ++ back) := by
    rw [hline, h, List.append_assoc, Text.stripLeft_append hfront]
    refine Text.stripLeft_eq_self fun c hc => ?_
    cases hc
    decide
  simp [assignment?, hleft, show isKeyChar '#' = false by decide]

/-! ## Entries -/

/-- The entry of a line that is cut at its first equals sign. -/
def cutAtEquals (n : Nat) (line : Text) : EnvEntry :=
  if Text.strip line = [] then ⟨.empty, line, n, none, none⟩
  else if '=' ∈ line ∧ isKeyText (Text.strip (beforeEquals line)) = true then
    ⟨.assignment, line, n, some (Text.strip (beforeEquals line)),
      some (Text.strip (afterEquals line))⟩
  else ⟨.comment, line, n, none, none⟩

theorem ofLine_eq_cutAtEquals (n : Nat) (line : Text) : ofLine n line = cutAtEquals n line := by
  have hassign := assignment?_eq_ite line
  unfold ofLine cutAtEquals
  split
  · rename_i hstrip
    rw [if_pos hstrip]
  · rename_i hstrip
    rw [if_neg (by simp [hstrip]), if_neg]
    intro hcut
    rw [assignment?_of_numberSign hstrip, if_pos hcut] at hassign
    cases hassign
  · rename_i hstrip _
    rw [if_neg hstrip, hassign]
    by_cases hcut : '=' ∈ line ∧ isKeyText (Text.strip (beforeEquals line)) = true
    · rw [if_pos hcut, if_pos hcut]
    · rw [if_neg hcut, if_neg hcut]

/-- **An environment file is cut at the first equals sign of each of its lines.** -/
theorem parse_eq_map_cutAtEquals (content : Text) :
    parse content = ((Text.lines content).zipIdx 1).map fun (line, n) => cutAtEquals n line := by
  have hlines : ∀ (lines : List Text) (n : Nat),
      ofLines n lines = (lines.zipIdx n).map fun (line, n) => cutAtEquals n line := by
    intro lines
    induction lines with
    | nil => exact fun _ => rfl
    | cons line lines ih =>
      intro n
      rw [ofLines, ih, ofLine_eq_cutAtEquals]
      rfl
  exact hlines _ 1

end EnvEntry
end EnvAudit
