import EnvAudit.Proofs.ExampleSecrets

/-!
# What a scan finds in an example

A scan does not know a placeholder from a value. In the line of a variable of an example a rule
finds what it finds in the key alone, for no match of the other rules gets over the equals sign,
with one exception: behind a key that ends in a telling word, the two rules for such words take the
placeholder for the value, where it is long enough (`IsKey.matches_variableLine_iff`). So the
findings in the variables of an example are known from the keys (`example_findings_iff`), and an
example with harmless keys need not be clean (`example_not_clean`).
-/
namespace EnvAudit

open Pattern SecretRule

/-! ## Rules with a telling word -/

namespace SecretRule

/-- The words that announce a key for an interface. -/
def apiWords : Pattern :=
  alts [seqs [literal "api".toList, optional (oneOf (chars "_-")), literal "key".toList],
    literal "apikey".toList,
    seqs [literal "api".toList, optional (oneOf (chars "_-")), literal "secret".toList]]

/-- The white space and the sign of an assignment. -/
def sign : Pattern := (Pattern.seq blanks (oneOf (chars ":="))).ignoringCase

/-- What stands behind the sign of an assignment: a run of at least so many characters, perhaps
in quotes. -/
def valueBehindSign (least : Nat) (items : List ClassItem) : Pattern :=
  .seq (.seq blanks quote?) (.seq (atLeast least (oneOf items)) quote?)

/-- The shape of a value that is assigned to a telling word. -/
def behindWord (word : Pattern) (least : Nat) (items : List ClassItem) : Pattern :=
  seqs [word, assigned, atLeast least (oneOf items), quote?]

theorem pattern_genericApiKey :
    genericApiKey.pattern = (behindWord apiWords 20 base64UrlChars).ignoringCase := rfl

theorem pattern_genericSecret :
    genericSecret.pattern = (behindWord secretWords 8 valueChars).ignoringCase := rfl

end SecretRule

/-- Whether a text ends, in whatever case, with a word that the pattern matches. -/
def Pattern.EndsText (word : Pattern) (t : Text) : Prop :=
  ∃ i, word.ignoringCase.Matches t i t.length

/-- Every rule but the one for long runs looks at nothing but what it takes. -/
theorem isBlind_or_label : ∀ rule ∈ registry,
    rule.pattern.isBlind = true ∨ rule.label = base64String.label := by
  decide

/-- Every match of a rule is a span with text. -/
theorem Span.isMatch_of_matches {rule : SecretRule} (hr : rule ∈ registry) {line : Text} {i j : Nat}
    (h : rule.pattern.Matches line i j) : Span.IsMatch rule.pattern line ⟨i, j⟩ := by
  obtain ⟨hp, hw⟩ := registry_patterns rule hr
  have hlt : i < j := lt_of_matches hw h
  exact ⟨hlt, (reads_ways line hp).le_length (Nat.le_of_lt (lt_length_of_matches h hlt)) h, h⟩

namespace EnvEntry

variable {k : Text}

/-! ## A word, a sign and a placeholder -/

/-- What takes no character of a key takes nothing inside a key. -/
theorem IsKey.eq_of_rejects (hk : IsKey k) {p : Pattern}
    (hp : ∀ c, isKeyChar c = true → p.rejects c = true) {m j : Nat} (hm : m < k.length)
    (h : p.Matches (variableLine k) m j) : j = m := by
  refine Nat.le_antisymm (Nat.le_of_not_lt fun hlt => ?_) (le_of_matches h)
  have hc : (variableLine k)[m]? = some k[m] := by
    rw [variableLine, List.getElem?_append_left hm, List.getElem?_eq_getElem hm]
  exact not_taken_of_rejects (hp _ (hk.chars _ (List.getElem_mem hm))) h (Nat.le_refl m) hlt hc

theorem rejects_sign {c : Char} (h : isKeyChar c = true) : sign.rejects c = true := by
  have hb : isBlank c = false := isBlank_of_isKeyChar h
  have hs : { items := chars ":=", ignoreCase := true : CharClass }.accepts c = false := by
    refine Bool.eq_false_iff.mpr fun ha => ?_
    have hsigns : ∀ d ∈ [':', '='], isFromCapitals d = false := by
      rw [List.forall_mem_cons, List.forall_mem_singleton]
      decide
    have hmem := CharClass.mem_of_accepts_chars hsigns ha
    revert h
    rcases List.mem_cons.mp hmem with rfl | hmem
    · decide
    · obtain rfl := List.mem_singleton.mp hmem
      decide
  have hblank : { items := [.blank], ignoreCase := true : CharClass }.accepts c = false := by
    simpa [CharClass.accepts, CharClass.names, ClassItem.coversAnyCase, ClassItem.covers] using hb
  change (!CharClass.accepts _ c && !CharClass.accepts _ c) = true
  rw [hblank, hs]
  rfl

/-- The sign that follows a part of a key is the equals sign behind the key. -/
theorem IsKey.matches_sign_iff (hk : IsKey k) {m j : Nat} (hm : m ≤ k.length) :
    sign.Matches (variableLine k) m j ↔ m = k.length ∧ j = k.length + 1 := by
  constructor
  · intro h
    have hwidth : m + 1 ≤ j := (width_of_matches h (0, none)).1
    obtain rfl : m = k.length := by
      refine Nat.le_antisymm hm (Nat.le_of_not_lt fun hlt => ?_)
      have := hk.eq_of_rejects (fun c => rejects_sign) hlt h
      omega
    obtain ⟨m', hle, hle', c, hc, -, rfl⟩ :=
      exists_second_of_rejects (by decide) h (Nat.le_refl _) (getElem?_sign k)
    exact ⟨rfl, by omega⟩
  · rintro ⟨rfl, rfl⟩
    refine ⟨k.length, ⟨0, Nat.le_refl 0, nofun, rfl⟩, '=', getElem?_sign k, by decide, rfl⟩

/-- **A rule with a telling word takes a placeholder for a value** exactly if the word ends the key
and the placeholder has the form of a value. -/
theorem IsKey.matches_behindWord_iff (hk : IsKey k) {word : Pattern}
    (hb : word.ignoringCase.isBlind = true) (hw : word.ignoringCase.rejects '=' = true)
    (least : Nat) (items : List ClassItem) :
    (∃ i j, i ≤ k.length ∧ (behindWord word least items).ignoringCase.Matches (variableLine k) i j) ↔
      word.EndsText k ∧ ∃ j, (valueBehindSign least items).ignoringCase.Matches (placeholder k) 0 j := by
  have hvalue : (valueBehindSign least items).ignoringCase.isBlind = true := rfl
  have hback : ∀ j, (valueBehindSign least items).ignoringCase.Matches (variableLine k)
      (k.length + 1) (k.length + 1 + j) ↔
      (valueBehindSign least items).ignoringCase.Matches (placeholder k) 0 j := by
    intro j
    have := matches_append_right_iff hvalue (k ++ ['=']) (placeholder k) 0 j
    simpa [variableLine] using this
  constructor
  · rintro ⟨i, j, hi, m, hm, m', ⟨n, hblanks, n', hsign, n'', hblanks', hquote⟩, hrest⟩
    have hmk : m ≤ k.length := Nat.le_of_not_lt fun hlt =>
      not_taken_of_rejects hw hm hi hlt (getElem?_sign k)
    obtain ⟨rfl, rfl⟩ := (hk.matches_sign_iff hmk).mp ⟨n, hblanks, hsign⟩
    have hv : (valueBehindSign least items).ignoringCase.Matches (variableLine k) (k.length + 1) j :=
      ⟨m', ⟨n'', hblanks', hquote⟩, hrest⟩
    obtain ⟨d, rfl⟩ := Nat.exists_eq_add_of_le (le_of_matches hv)
    exact ⟨⟨i, (matches_append_iff hb (Nat.le_refl _)).mp hm⟩, d, (hback d).mp hv⟩
  · rintro ⟨⟨i, hm⟩, j, hv⟩
    obtain ⟨m', ⟨n'', hblanks', hquote⟩, hrest⟩ := (hback j).mpr hv
    obtain ⟨n, hblanks, hsign⟩ := (hk.matches_sign_iff (Nat.le_refl _)).mpr ⟨rfl, rfl⟩
    exact ⟨i, _, le_of_matches hm, k.length, (matches_append_iff hb (Nat.le_refl _)).mpr hm, m',
      ⟨n, hblanks, _, hsign, n'', hblanks', hquote⟩, hrest⟩

/-! ## Long runs -/

/-- The class of base64 characters as the rule for long runs reads it. -/
def runClass : CharClass := { items := base64Chars, ignoreCase := true }

/-- The characters that may fill up a run. -/
def padding : Pattern := .many 0 (some 2) true (.one { CharClass.single '=' with ignoreCase := true })

theorem pattern_base64String :
    base64String.pattern =
      .seq (.behind true 1 (.one runClass)) (.seq (.many 40 none true (.one runClass))
        (.seq padding (.ahead true (.one runClass)))) := rfl

/-- Behind a place up to the end of the key, the class reads the line as it reads the key. -/
theorem exists_ahead_iff {j : Nat} (hj : j ≤ k.length) :
    (∃ m, (Pattern.one runClass).Matches (variableLine k) j m) ↔
      ∃ m, (Pattern.one runClass).Matches k j m := by
  rcases Nat.lt_or_eq_of_le hj with hlt | rfl
  · refine exists_congr fun m => ⟨fun h => ?_, fun h => ?_⟩
    · obtain ⟨-, -, -, rfl⟩ := id h
      exact (matches_append_iff rfl hlt).mp h
    · obtain ⟨-, -, -, rfl⟩ := id h
      exact (matches_append_iff rfl hlt).mpr h
  · refine iff_of_false ?_ ?_
    · rintro ⟨m, c, hc, ha, -⟩
      rw [getElem?_sign] at hc
      cases hc
      exact Bool.false_ne_true ha
    · rintro ⟨m, c, hc, -⟩
      simp at hc

/-- There is nothing to fill up in a key. -/
theorem IsKey.eq_of_padding (hk : IsKey k) {e j : Nat} (he : e < k.length)
    (h : padding.Matches (variableLine k) e j) : j = e := by
  refine hk.eq_of_rejects (fun c hc => ?_) he h
  have hs : { CharClass.single '=' with ignoreCase := true : CharClass }.accepts c = false := by
    refine Bool.eq_false_iff.mpr fun ha => ?_
    obtain rfl := CharClass.eq_of_accepts_single (by decide) ha
    revert hc
    decide
  change (!CharClass.accepts _ c) = true
  rw [hs]
  rfl

/-- The rule for long runs looks at the characters around a run, too. In front of the equals sign a
run ends as it does at the end of the key. -/
theorem IsKey.matches_base64String_iff (hk : IsKey k) :
    (∃ i j, base64String.pattern.Matches (variableLine k) i j) ↔
      ∃ i j, base64String.pattern.Matches k i j := by
  rw [pattern_base64String]
  constructor
  · rintro ⟨i, j, _, ⟨rfl, hbehind⟩, e, hrun, j', hpad, rfl, hahead⟩
    have hlong : i + 40 ≤ e := (width_of_matches hrun (0, none)).1
    have hi : i ≤ k.length := by
      have hstart := lt_length_of_matches hrun (by omega)
      have hstop := (reads_ways _ rfl).le_length (Nat.le_of_lt hstart) hrun
      have hline : (variableLine k).length = k.length + ((placeholder k).length + 1) := by
        simp [variableLine]
      have hshort := length_placeholderValues _ (placeholder_mem k)
      omega
    have he : e ≤ k.length := Nat.le_of_not_lt fun hlt =>
      not_taken_of_rejects (by rfl) hrun hi hlt (getElem?_sign k)
    have hend : ¬ ∃ m, (Pattern.one runClass).Matches k e m := by
      rcases Nat.lt_or_eq_of_le he with hlt | rfl
      · obtain rfl := hk.eq_of_padding hlt hpad
        rw [← exists_ahead_iff he, hahead]
        simp
      · rintro ⟨m, c, hc, -⟩
        simp at hc
    refine ⟨i, e, i, ⟨rfl, ?_⟩, e, (matches_append_iff rfl he).mp hrun, e,
      ⟨0, Nat.le_refl 0, fun m _ => Nat.zero_le m, rfl⟩, rfl, iff_of_false hend (by decide)⟩
    exact (exists_congr fun m => matches_append_iff rfl hi).symm.trans hbehind
  · rintro ⟨i, j, _, ⟨rfl, hbehind⟩, e, hrun, j', hpad, rfl, hahead⟩
    have hlong : i + 40 ≤ e := (width_of_matches hrun (0, none)).1
    have hi : i ≤ k.length := Nat.le_of_lt (lt_length_of_matches hrun (by omega))
    have he : e ≤ k.length := (reads_ways _ rfl).le_length hi hrun
    obtain rfl : j' = e := by
      have hj : j' ≤ k.length := (reads_ways _ rfl).le_length he hpad
      rcases Nat.lt_or_eq_of_le he with hlt | rfl
      · exact hk.eq_of_padding hlt ((matches_append_iff rfl hj).mpr hpad)
      · exact Nat.le_antisymm hj (le_of_matches hpad)
    refine ⟨i, j', i, ⟨rfl, ?_⟩, j', (matches_append_iff rfl he).mpr hrun, j',
      ⟨0, Nat.le_refl 0, fun m _ => Nat.zero_le m, rfl⟩, rfl, (exists_ahead_iff he).trans hahead⟩
    exact (exists_congr fun m => matches_append_iff rfl hi).trans hbehind

/-! ## The line of a variable -/

/-- A rule matches in the line of a variable where it matches in the key alone. -/
theorem IsKey.matches_of_key (hk : IsKey k) {rule : SecretRule} (hr : rule ∈ registry)
    (h : ∃ i j, rule.pattern.Matches k i j) : ∃ i j, rule.pattern.Matches (variableLine k) i j := by
  rcases isBlind_or_label rule hr with hb | hl
  · obtain ⟨i, j, hm⟩ := h
    have hm' : j ≤ k.length := (Span.isMatch_of_matches hr hm).inLine
    exact ⟨i, j, (matches_append_iff hb hm').mpr hm⟩
  · obtain rfl := eq_of_label hr (by simp [registry]) hl
    exact hk.matches_base64String_iff.mpr h

/-- Whether a rule finds the placeholder of a key behind the word that ends the key. -/
def FindsPlaceholder (rule : SecretRule) (k : Text) : Prop :=
  rule = genericApiKey ∧ apiWords.EndsText k ∧ placeholder k = "your_secret_key_here".toList ∨
    rule = genericSecret ∧ secretWords.EndsText k ∧ placeholder k ≠ "3000".toList

theorem run_genericApiKey_placeholder : ∀ v ∈ placeholderValues,
    (((valueBehindSign 20 base64UrlChars).ignoringCase.run (.atColumn v 0) some).isSome = true ↔
      v = "your_secret_key_here".toList) := by
  decide +kernel

theorem run_genericSecret_placeholder : ∀ v ∈ placeholderValues,
    (((valueBehindSign 8 valueChars).ignoringCase.run (.atColumn v 0) some).isSome = true ↔
      v ≠ "3000".toList) := by
  decide +kernel

/-- A rule with a telling word finds a placeholder behind the word if it has the form of a value. -/
theorem IsKey.matches_of_behindWord_iff (hk : IsKey k) {rule : SecretRule} (hr : rule ∈ registry)
    {word : Pattern} {least : Nat} {items : List ClassItem}
    (hp : rule.pattern = (behindWord word least items).ignoringCase)
    (hb : word.ignoringCase.isBlind = true) (hw : word.ignoringCase.rejects '=' = true) :
    (∃ i j, rule.pattern.Matches (variableLine k) i j) ↔ word.EndsText k ∧
      ((valueBehindSign least items).ignoringCase.run (.atColumn (placeholder k) 0) some).isSome =
        true := by
  have hblind : rule.pattern.isBlind = true := by
    rw [hp]
    exact Bool.and_eq_true_iff.mpr ⟨hb, rfl⟩
  rw [isSome_run_iff rfl (Place.isAt_atColumn (Nat.zero_le _)),
    ← hk.matches_behindWord_iff hb hw least items, ← hp]
  refine ⟨fun ⟨i, j, hm⟩ => ⟨i, j, ?_, hm⟩, fun ⟨i, j, _, hm⟩ => ⟨i, j, hm⟩⟩
  exact start_le_of_isMatch hr hblind (Span.isMatch_of_matches hr hm)

/-- The rule for keys of interfaces finds one placeholder. -/
theorem IsKey.matches_genericApiKey_iff (hk : IsKey k) :
    (∃ i j, genericApiKey.pattern.Matches (variableLine k) i j) ↔
      apiWords.EndsText k ∧ placeholder k = "your_secret_key_here".toList := by
  rw [hk.matches_of_behindWord_iff (by simp [registry]) pattern_genericApiKey rfl (by decide)]
  exact and_congr_right' (run_genericApiKey_placeholder _ (placeholder_mem k))

/-- The rule for secrets finds every placeholder but the number of a port. -/
theorem IsKey.matches_genericSecret_iff (hk : IsKey k) :
    (∃ i j, genericSecret.pattern.Matches (variableLine k) i j) ↔
      secretWords.EndsText k ∧ placeholder k ≠ "3000".toList := by
  rw [hk.matches_of_behindWord_iff (by simp [registry]) pattern_genericSecret rfl (by decide)]
  exact and_congr_right' (run_genericSecret_placeholder _ (placeholder_mem k))

/-- The rules whose matches in the line of a variable lie in the key, and the three others. -/
theorem registry_cases : ∀ rule ∈ registry,
    (rule.pattern.rejects '=' = true ∨ rule.label = awsSecretAccessKey.label ∨
      rule.label = databaseConnection.label) ∨ rule.label = genericApiKey.label ∨
      rule.label = genericSecret.label ∨ rule.label = base64String.label := by
  decide

/-- **What a rule finds in the line of a variable** of an example: what it finds in the key alone,
or the placeholder behind the word that ends the key. -/
theorem IsKey.matches_variableLine_iff (hk : IsKey k) {rule : SecretRule} (hr : rule ∈ registry) :
    (∃ i j, rule.pattern.Matches (variableLine k) i j) ↔
      (∃ i j, rule.pattern.Matches k i j) ∨ FindsPlaceholder rule k := by
  constructor
  · intro h
    rcases registry_cases rule hr with hc | hl | hl | hl
    · obtain ⟨i, j, hm⟩ := h
      have hstop := hk.stop_le_of_isMatch hr (hc.imp_right fun h => h.imp
        (eq_of_label hr (by simp [registry])) (eq_of_label hr (by simp [registry])))
        (Span.isMatch_of_matches hr hm)
      exact .inl ⟨i, j, (matches_append_iff (isBlind_of_rejects_or_label rule hr hc) hstop).mp hm⟩
    · obtain rfl := eq_of_label hr (by simp [registry]) hl
      exact .inr (.inl ⟨rfl, hk.matches_genericApiKey_iff.mp h⟩)
    · obtain rfl := eq_of_label hr (by simp [registry]) hl
      exact .inr (.inr ⟨rfl, hk.matches_genericSecret_iff.mp h⟩)
    · obtain rfl := eq_of_label hr (by simp [registry]) hl
      exact .inl (hk.matches_base64String_iff.mp h)
  · rintro (h | ⟨rfl, h⟩ | ⟨rfl, h⟩)
    · exact hk.matches_of_key hr h
    · exact hk.matches_genericApiKey_iff.mpr h
    · exact hk.matches_genericSecret_iff.mpr h

/-! ## The findings of an example -/

theorem getElem?_lines_of_parse {c : Text} {i : Nat} {entry : EnvEntry}
    (h : (parse c)[i]? = some entry) : ∃ line, (Text.lines c)[i]? = some line ∧
      entry = ofLine (1 + i) line := by
  have hl : (Text.lines c)[i]? = some entry.raw := by
    rw [← map_raw_ofLines 1 (Text.lines c), List.getElem?_map, ← parse, h]
    rfl
  exact ⟨entry.raw, hl, Option.some.inj (h.symm.trans (getElem?_ofLines hl 1))⟩

/-- **The findings in the variables of an example.** Every variable of an example has the key of the
variable in the same line of its file, and a rule has a finding in the line exactly if it matches in
the key alone or finds the placeholder behind the word that ends the key. -/
theorem example_findings_iff (c file : Text) :
    ∃ e : Text, example? (parse c) = some e ∧
      ∀ (i : Nat) (entry : EnvEntry), (parse e)[i]? = some entry → entry.isVariable = true →
        ∃ (k : Text) (old : EnvEntry), (parse c)[i]? = some old ∧ old.isVariable = true ∧
          old.key = some k ∧ entry.key = some k ∧
          ∀ rule ∈ registry,
            (∃ f ∈ SecretFinding.detect registry e file,
              f.rule = rule.label ∧ f.line = ((i + 1 : Nat) : Int)) ↔
            (∃ a b, rule.pattern.Matches k a b) ∨ FindsPlaceholder rule k := by
  refine ⟨_, example?_parse c, fun i entry hentry hvar => ?_⟩
  rw [parse_exampleText, List.getElem?_map, Option.map_eq_some_iff] at hentry
  obtain ⟨old, hold, rfl⟩ := hentry
  obtain ⟨line, -, rfl⟩ := getElem?_lines_of_parse hold
  rcases ofLine_cases (1 + i) line with ⟨k, v, hk, h⟩ | h
  · rw [h] at hold ⊢
    refine ⟨k, _, hold, rfl, rfl, rfl, fun rule hr => ?_⟩
    have hline : (Text.lines (exampleText (parse c)))[i]? = some (variableLine k) := by
      rw [lines_exampleText, List.getElem?_map, hold]
      rfl
    rw [SecretFinding.exists_finding_iff hr _ file hline]
    exact hk.matches_variableLine_iff hr
  · rw [toExample, h] at hvar
    exact absurd (h.symm.trans hvar) Bool.false_ne_true

/-- Whether the example of a text without secrets in its keys has no finding in a variable. -/
def HasCleanExample (c : Text) : Prop :=
  (∀ k ∈ keys (parse c), ∀ rule ∈ registry, ∀ i j, ¬ rule.pattern.Matches k i j) →
    ∀ e file, example? (parse c) = some e → ∀ f ∈ SecretFinding.detect registry e file,
      ∀ (i : Nat) (entry : EnvEntry), (parse e)[i]? = some entry →
        f.line = ((i + 1 : Nat) : Int) → entry.isVariable = false

/-- A finding in the first line of an example, which is a variable. -/
theorem not_hasCleanExample {c e : Text}
    (hkeys : ∀ rule ∈ registry, (keys (parse c)).all (fun k => (rule.hits k).isEmpty) = true)
    (he : example? (parse c) = some e)
    (hfound : (SecretFinding.detect registry e []).any (·.line == 1) = true)
    (hvar : (parse e)[0]?.any isVariable = true) : ¬ HasCleanExample c := by
  intro h
  obtain ⟨f, hf, hline⟩ := List.any_eq_true.mp hfound
  obtain ⟨entry, hentry, hassign⟩ := (Option.any_eq_true _ _).mp hvar
  have hno := h (fun k hk rule hr => ?_) e [] he f hf 0 entry hentry (beq_iff_eq.mp hline)
  · rw [hassign] at hno
    cases hno
  · refine not_matches_of_hits_eq_nil hr (List.isEmpty_iff.mp ?_)
    exact List.all_eq_true.mp (hkeys rule hr) k hk

/-- The examples of a password and of a key for an interface have findings, though there is no
secret in the keys. -/
theorem example_not_clean :
    ¬ HasCleanExample "PASSWORD=x".toList ∧ ¬ HasCleanExample "API_KEY=x".toList := by
  refine ⟨not_hasCleanExample (e := "PASSWORD=password".toList) ?_ ?_ ?_ ?_,
    not_hasCleanExample (e := "API_KEY=your_secret_key_here".toList) ?_ ?_ ?_ ?_⟩
  all_goals decide +kernel

end EnvEntry
end EnvAudit
