import EnvAudit.Proofs.AssignmentPattern
import EnvAudit.Proofs.HitColumns
import EnvAudit.Proofs.PaddedLine
import EnvAudit.Proofs.SecretClasses
import Mathlib.Data.List.Forall2

/-!
# Quotes around secrets

The pattern for a value that is called a secret allows a quote before the value and one behind it.
Quotes are characters of values themselves. So a quote before the value may be read as part of the
value, and where the value is long enough behind the quote, it is so with it; both ways it ends where
its characters end, and there stands no quote. Hence the quotes never change a match
(`genericSecret_without_quotes`).
-/
namespace EnvAudit

open Pattern SecretRule

/-! ## Announcements -/

/-- The words that announce a secret. -/
def announcingWords : List Text := ["secret", "password", "passwd", "pwd"].map String.toList

/-- Whether a text is a word but for the case of its letters. A look-alike of a letter differs from it
in case only. -/
def IsInAnyCase (word t : Text) : Prop := List.Forall₂ (fun d c => d ∈ caseVariants c) word t

/-- A word, a sign and a value, with what stands between them. -/
structure Announcement where
  word : Text
  gap : Text
  sign : Char
  margin : Text
  value : Text

namespace Announcement

/-- An announcement as it stands in a line. -/
def text (a : Announcement) : Text := a.word ++ (a.gap ++ a.sign :: (a.margin ++ a.value))

/-- Whether an announcement is made of its proper parts. -/
structure IsProper (a : Announcement) : Prop where
  word : ∃ word ∈ announcingWords, IsInAnyCase word a.word
  gap : ∀ c ∈ a.gap, isBlank c = true
  sign : a.sign = ':' ∨ a.sign = '='
  margin : ∀ c ∈ a.margin, isBlank c = true
  value : ∀ c ∈ a.value, isValueChar c = true
  long : 8 ≤ a.value.length

end Announcement

/-- Whether an announcement stands in a span, and behind it no character that its value could go on
with. -/
def Span.IsAnnounced (line : Text) (s : Span) : Prop :=
  ∃ (a : Announcement) (rest : Text), a.IsProper ∧ line.drop s.start = a.text ++ rest ∧
    s.stop = s.start + a.text.length ∧ rest.head?.any isValueChar = false

/-- The rule for a value that is called a secret, without the quotes. -/
def SecretRule.unquotedSecret : SecretRule :=
  { genericSecret with
    pattern := (seqs [secretWords, blanks, oneOf (chars ":="), blanks,
      atLeast 8 (oneOf valueChars)]).ignoringCase }

/-! ## Without quotes -/

namespace Pattern

section

variable (b t : Text) (cap : Option Text)

/-- A quote that may be there or not, and then a long value, and perhaps a quote. -/
def quotedValue : Pattern := (seqs [quote?, atLeast 8 (oneOf valueChars), quote?]).ignoringCase

/-- A long value. -/
def longValue : Pattern := (atLeast 8 (oneOf valueChars)).ignoringCase

theorem run_quote? (k : Continuation) :
    quote?.ignoringCase.run ⟨b, t, cap⟩ k =
      if t.head?.any ['\'', '"'].contains then (k (Place.next ⟨b, t, cap⟩)).or (k ⟨b, t, cap⟩)
      else k ⟨b, t, cap⟩ := by
  let cls : CharClass := { items := chars "'\"", ignoreCase := true }
  have hcls : cls.accepts = ['\'', '"'].contains := funext (accepts_signs (by decide))
  have hrun : quote?.ignoringCase.run ⟨b, t, cap⟩ k =
      (many 0 (some 1) true (.one cls)).run ⟨b, t, cap⟩ k := rfl
  rw [hrun, run_atMost_succ, hcls]
  congr 2
  exact run_atMost_zero cls _

theorem run_longValue :
    longValue.run ⟨b, t, cap⟩ some =
      if 8 ≤ (t.takeWhile isValueChar).length then
        some ⟨(t.takeWhile isValueChar).reverse ++ b, t.dropWhile isValueChar, cap⟩
      else none := by
  let cls : CharClass := { items := valueChars, ignoreCase := true }
  have hcls : cls.accepts = isValueChar := funext accepts_value
  have hrun : longValue.run ⟨b, t, cap⟩ some = (atLeast 8 (.one cls)).run ⟨b, t, cap⟩ some := rfl
  rw [hrun, run_atLeast cls 8 t (by simp), hcls]

theorem isValueChar_of_quote {c : Char} (h : ['\'', '"'].contains c = true) :
    isValueChar c = true := by
  rw [isValueChar, Bool.or_eq_true]
  right
  rw [List.contains_iff_mem] at h ⊢
  exact (by decide : ['\'', '"'] ⊆ _) h

/-- Behind a value stands no quote, for it would belong to the value. -/
theorem run_value_quote? :
    (seqs [atLeast 8 (oneOf valueChars), quote?]).ignoringCase.run ⟨b, t, cap⟩ some =
      longValue.run ⟨b, t, cap⟩ some := by
  let cls : CharClass := { items := valueChars, ignoreCase := true }
  have hcls : cls.accepts = isValueChar := funext accepts_value
  have hquote : ∀ e : Place, quote?.ignoringCase.run e some ≠ none := by
    rintro ⟨b, t, cap⟩
    rw [run_quote?]
    split <;> simp
  have hrun : (seqs [atLeast 8 (oneOf valueChars), quote?]).ignoringCase.run ⟨b, t, cap⟩ some =
      (atLeast 8 (.one cls)).run ⟨b, t, cap⟩ fun e => quote?.ignoringCase.run e some := rfl
  have hend : (t.dropWhile isValueChar).head?.any ['\'', '"'].contains = false := by
    have hvalue := head?_dropWhile isValueChar t
    cases hhead : (t.dropWhile isValueChar).head? with
    | none => rfl
    | some c =>
      rw [hhead, Option.any_some] at hvalue
      rw [Option.any_some, Bool.eq_false_iff]
      exact fun hquote => Bool.eq_false_iff.mp hvalue (isValueChar_of_quote hquote)
  rw [hrun, run_atLeast cls 8 t (fun h => absurd h (hquote _)), hcls, run_quote?, hend,
    run_longValue]
  rfl

/-- **Quotes around a value change nothing.** -/
theorem run_quotedValue : quotedValue.run ⟨b, t, cap⟩ some = longValue.run ⟨b, t, cap⟩ some := by
  have hrun : quotedValue.run ⟨b, t, cap⟩ some = quote?.ignoringCase.run ⟨b, t, cap⟩
      fun e => (seqs [atLeast 8 (oneOf valueChars), quote?]).ignoringCase.run e some := rfl
  rw [hrun, run_quote?]
  split
  · rename_i hquote
    obtain ⟨c, t, rfl⟩ : ∃ c t', t = c :: t' := by
      cases t with
      | nil => cases hquote
      | cons c t => exact ⟨c, t, rfl⟩
    have hc : isValueChar c = true := isValueChar_of_quote hquote
    have hnext : Place.next ⟨b, c :: t, cap⟩ = ⟨c :: b, t, cap⟩ := rfl
    rw [hnext, run_value_quote?, run_value_quote?, run_longValue, run_longValue,
      List.takeWhile_cons_of_pos hc, List.dropWhile_cons_of_pos hc, List.reverse_cons,
      List.append_assoc, List.length_cons]
    -- the value that starts behind the quote ends where the value with the quote does
    by_cases hlong : 8 ≤ (t.takeWhile isValueChar).length
    · rw [if_pos hlong, if_pos (by omega)]
      rfl
    · rw [if_neg hlong, Option.none_or]
  · exact run_value_quote? b t cap

end

/-- The rule finds from each place what it finds without the quotes. -/
theorem run_genericSecret (s : Place) :
    genericSecret.pattern.run s some = unquotedSecret.pattern.run s some := by
  have hquoted : genericSecret.pattern.run s some =
      (seqs [secretWords, blanks, oneOf (chars ":="), blanks]).ignoringCase.run s
        fun e => quotedValue.run e some := rfl
  have hunquoted : unquotedSecret.pattern.run s some =
      (seqs [secretWords, blanks, oneOf (chars ":="), blanks]).ignoringCase.run s
        fun e => longValue.run e some := rfl
  rw [hquoted, hunquoted]
  exact congrArg _ (funext fun e => run_quotedValue e.before e.after e.captured)

end Pattern

/-! ## Where an announcement stands -/

theorem dropText?_eq_some_iff {word b t : Text} {cap : Option Text} {e : Place} :
    dropText? true word ⟨b, t, cap⟩ = some e ↔ ∃ found rest, IsInAnyCase word found ∧
      t = found ++ rest ∧ e = ⟨found.reverse ++ b, rest, cap⟩ := by
  induction word generalizing b t with
  | nil =>
    constructor
    · intro h
      exact ⟨[], t, .nil, rfl, (Option.some.inj h).symm⟩
    · rintro ⟨found, rest, hfound, rfl, rfl⟩
      cases hfound
      rfl
  | cons d word ih =>
    cases t with
    | nil =>
      constructor
      · intro h
        cases h
      · rintro ⟨found, rest, hfound, hsplit, -⟩
        cases hfound
        cases hsplit
    | cons c t =>
      have hstep : dropText? true (d :: word) ⟨b, c :: t, cap⟩ =
          if d ∈ caseVariants c then dropText? true word ⟨c :: b, t, cap⟩ else none := by
        simp [dropText?, CharClass.accepts, CharClass.names, ClassItem.coversAnyCase, Place.next]
      rw [hstep]
      constructor
      · intro h
        split at h
        · rename_i hd
          obtain ⟨found, rest, hfound, rfl, rfl⟩ := ih.mp h
          exact ⟨c :: found, rest, .cons hd hfound, rfl, by simp⟩
        · cases h
      · rintro ⟨found, rest, hfound, hsplit, rfl⟩
        obtain ⟨c', found', hd, hword, rfl⟩ := List.forall₂_cons_left_iff.mp hfound
        obtain ⟨rfl, rfl⟩ := List.cons.inj hsplit
        rw [if_pos hd]
        exact ih.mpr ⟨found', rest, hword, rfl, by simp⟩

namespace Pattern

section

variable {b t : Text} {cap : Option Text} {k : Continuation} {e : Place}

theorem run_literal_ignoringCase (word : Text) (s : Place) (k : Continuation) :
    (literal word).ignoringCase.run s k = (dropText? true word s).bind k := by
  induction word generalizing s with
  | nil => rfl
  | cons d word ih =>
    have hcons : (literal (d :: word)).ignoringCase.run s k =
        (Pattern.one (.single d)).ignoringCase.run s
          fun e => (literal word).ignoringCase.run e k := by
      cases word <;> rfl
    rw [hcons, funext ih]
    obtain ⟨b, t, cap⟩ := s
    cases t with
    | nil => rfl
    | cons c t =>
      simp only [ignoringCase, run, dropText?, CharClass.single]
      split <;> rfl

theorem run_alt (p q : Pattern) (s : Place) (k : Continuation) :
    (alt p q).run s k = (p.run s k).or (q.run s k) := by
  rw [run]
  cases p.run s k <;> rfl

theorem run_alts_literal {words : List Text} (hne : words ≠ []) (s : Place) :
    (alts (words.map literal)).ignoringCase.run s k =
      words.findSome? fun word => (dropText? true word s).bind k := by
  induction words with
  | nil => exact absurd rfl hne
  | cons word words ih =>
    cases words with
    | nil =>
      refine (run_literal_ignoringCase word s k).trans ?_
      cases h : (dropText? true word s).bind k <;> simp [h]
    | cons other words =>
      refine (run_alt (literal word).ignoringCase
        (alts ((other :: words).map literal)).ignoringCase s k).trans ?_
      rw [run_literal_ignoringCase, ih (List.cons_ne_nil other words)]
      conv_rhs => rw [List.findSome?_cons]
      cases (dropText? true word s).bind k <;> rfl

/-- White space before something that no white space starts with. -/
theorem run_blanks_eq_some_iff (hk : ∀ b c a, isBlank c = true → k ⟨b, c :: a, cap⟩ = none) :
    blanks.ignoringCase.run ⟨b, t, cap⟩ k = some e ↔ ∃ gap rest, (∀ c ∈ gap, isBlank c = true) ∧
      t = gap ++ rest ∧ k ⟨gap.reverse ++ b, rest, cap⟩ = some e := by
  rw [run_blanks_of_none hk]
  constructor
  · exact fun h => ⟨t.takeWhile isBlank, Text.stripLeft t, List.all_eq_true.mp List.all_takeWhile,
      List.takeWhile_append_dropWhile.symm, h⟩
  · rintro ⟨gap, rest, hgap, rfl, h⟩
    have hrest : ∀ c ∈ rest.head?, isBlank c = false := by
      intro c hc
      obtain ⟨a, rfl⟩ := List.head?_eq_some_iff.mp hc
      refine Bool.eq_false_iff.mpr fun hblank => ?_
      rw [hk _ c a hblank] at h
      cases h
    rwa [Text.stripLeft, takeWhile_append_of_head hgap hrest, dropWhile_append_of_head hgap hrest]

theorem run_sign_eq_some_iff :
    (oneOf (chars ":=")).ignoringCase.run ⟨b, t, cap⟩ k = some e ↔ ∃ sign rest,
      (sign = ':' ∨ sign = '=') ∧ t = sign :: rest ∧ k ⟨sign :: b, rest, cap⟩ = some e := by
  cases t with
  | nil =>
    constructor
    · intro h
      cases h
    · rintro ⟨sign, rest, -, hsplit, -⟩
      cases hsplit
  | cons c t =>
    have haccepts : CharClass.accepts { items := chars ":=", ignoreCase := true } c =
        [':', '='].contains c := accepts_signs (by decide) c
    have hrun : (oneOf (chars ":=")).ignoringCase.run ⟨b, c :: t, cap⟩ k =
        if [':', '='].contains c then k ⟨c :: b, t, cap⟩ else none := haccepts ▸ rfl
    rw [hrun]
    constructor
    · intro h
      split at h
      · rename_i hc
        exact ⟨c, t, by simpa using hc, rfl, h⟩
      · cases h
    · rintro ⟨sign, rest, hsign, hsplit, h⟩
      obtain ⟨rfl, rfl⟩ := List.cons.inj hsplit
      rwa [if_pos (by simpa using hsign)]

theorem run_longValue_eq_some_iff :
    longValue.run ⟨b, t, cap⟩ some = some e ↔ ∃ value rest,
      (∀ c ∈ value, isValueChar c = true) ∧ 8 ≤ value.length ∧
        rest.head?.any isValueChar = false ∧ t = value ++ rest ∧
        e = ⟨value.reverse ++ b, rest, cap⟩ := by
  rw [run_longValue]
  constructor
  · intro h
    split at h
    · rename_i hlong
      cases h
      exact ⟨_, _, List.all_eq_true.mp List.all_takeWhile, hlong, head?_dropWhile isValueChar t,
        List.takeWhile_append_dropWhile.symm, rfl⟩
    · cases h
  · rintro ⟨value, rest, hvalue, hlong, hrest, rfl, rfl⟩
    have hhead : ∀ c ∈ rest.head?, isValueChar c = false := by
      intro c hc
      rwa [Option.mem_def.mp hc, Option.any_some] at hrest
    rw [takeWhile_append_of_head hvalue hhead, dropWhile_append_of_head hvalue hhead, if_pos hlong]

/-- White space, a sign, white space and a long value. -/
def assignedValue : Pattern :=
  (seqs [blanks, oneOf (chars ":="), blanks, atLeast 8 (oneOf valueChars)]).ignoringCase

theorem run_longValue_of_blank {c : Char} (hc : isBlank c = true) (b t : Text) :
    longValue.run ⟨b, c :: t, cap⟩ some = none := by
  have hblanks : CharClass.rejectsBlank { items := valueChars, ignoreCase := true } = true := by
    decide +kernel
  have hvalue : isValueChar c = false := by
    refine Bool.eq_false_iff.mpr fun hv => ?_
    rw [← accepts_value] at hv
    rw [CharClass.isBlank_eq_false_of_accepts hblanks hv] at hc
    cases hc
  rw [run_longValue, List.takeWhile_cons_of_neg (Bool.eq_false_iff.mp hvalue)]
  rfl

theorem run_assignedValue_eq_some_iff :
    assignedValue.run ⟨b, t, cap⟩ some = some e ↔ ∃ gap sign margin value rest,
      ((∀ c ∈ gap, isBlank c = true) ∧ (sign = ':' ∨ sign = '=') ∧
        (∀ c ∈ margin, isBlank c = true) ∧ (∀ c ∈ value, isValueChar c = true) ∧
        8 ≤ value.length) ∧ rest.head?.any isValueChar = false ∧
      t = gap ++ sign :: (margin ++ (value ++ rest)) ∧
      e = ⟨value.reverse ++ (margin.reverse ++ sign :: (gap.reverse ++ b)), rest, cap⟩ := by
  have hrun : assignedValue.run ⟨b, t, cap⟩ some = blanks.ignoringCase.run ⟨b, t, cap⟩
      fun e => (oneOf (chars ":=")).ignoringCase.run e
        fun e => blanks.ignoringCase.run e fun e => longValue.run e some := rfl
  have hgap : ∀ b c a, isBlank c = true → (oneOf (chars ":=")).ignoringCase.run ⟨b, c :: a, cap⟩
      (fun e => blanks.ignoringCase.run e fun e => longValue.run e some) = none := by
    intro b c a hc
    refine Option.eq_none_iff_forall_ne_some.mpr fun e he => ?_
    obtain ⟨sign, rest, hsign, hsplit, -⟩ := run_sign_eq_some_iff.mp he
    obtain ⟨rfl, rfl⟩ := List.cons.inj hsplit
    rcases hsign with rfl | rfl <;> exact absurd hc (by decide)
  rw [hrun, run_blanks_eq_some_iff hgap]
  have hmargin : ∀ b t, blanks.ignoringCase.run ⟨b, t, cap⟩ (fun e => longValue.run e some) =
      some e ↔ _ :=
    fun b t => run_blanks_eq_some_iff fun b c a hc => run_longValue_of_blank hc b a
  simp only [run_sign_eq_some_iff, hmargin, run_longValue_eq_some_iff]
  constructor
  · rintro ⟨gap, _, hg, rfl, sign, _, hs, rfl, margin, _, hm, rfl, value, rest, hv, hlong, hrest,
      rfl, rfl⟩
    exact ⟨gap, sign, margin, value, rest, ⟨hg, hs, hm, hv, hlong⟩, hrest, rfl, rfl⟩
  · rintro ⟨gap, sign, margin, value, rest, ⟨hg, hs, hm, hv, hlong⟩, hrest, rfl, rfl⟩
    exact ⟨gap, _, hg, rfl, sign, _, hs, rfl, margin, _, hm, rfl, value, rest, hv, hlong, hrest,
      rfl, rfl⟩

theorem run_unquotedSecret (s : Place) :
    unquotedSecret.pattern.run s some = announcingWords.findSome? fun word =>
      (dropText? true word s).bind fun e => assignedValue.run e some :=
  run_alts_literal (List.cons_ne_nil _ _ : announcingWords ≠ []) s

/-- What the rule without quotes finds is an announcement. -/
theorem exists_announcement
    (h : unquotedSecret.pattern.run ⟨b, t, cap⟩ some = some e) :
    ∃ (a : Announcement) (rest : Text), a.IsProper ∧ rest.head?.any isValueChar = false ∧
      t = a.text ++ rest ∧ e = ⟨a.text.reverse ++ b, rest, cap⟩ := by
  rw [run_unquotedSecret] at h
  obtain ⟨word, hword, h⟩ := List.exists_of_findSome?_eq_some h
  obtain ⟨r, hr, h⟩ := Option.bind_eq_some_iff.mp h
  obtain ⟨found, t, hfound, rfl, rfl⟩ := dropText?_eq_some_iff.mp hr
  obtain ⟨gap, sign, margin, value, rest, ⟨hg, hs, hm, hv, hlong⟩, hrest, rfl, rfl⟩ :=
    run_assignedValue_eq_some_iff.mp h
  exact ⟨⟨found, gap, sign, margin, value⟩, rest, ⟨⟨word, hword, hfound⟩, hg, hs, hm, hv, hlong⟩,
    hrest, by simp [Announcement.text], by simp [Announcement.text]⟩

/-- The rule without quotes finds every announcement. -/
theorem isSome_run_unquotedSecret {a : Announcement} (ha : a.IsProper) {rest : Text}
    (hrest : rest.head?.any isValueChar = false) :
    (unquotedSecret.pattern.run ⟨b, a.text ++ rest, cap⟩ some).isSome = true := by
  obtain ⟨word, hword, hfound⟩ := ha.word
  have hdrop : dropText? true word ⟨b, a.text ++ rest, cap⟩ = some ⟨a.word.reverse ++ b,
      a.gap ++ a.sign :: (a.margin ++ (a.value ++ rest)), cap⟩ :=
    dropText?_eq_some_iff.mpr ⟨a.word, _, hfound, by simp [Announcement.text], rfl⟩
  have hvalue : ∃ e, assignedValue.run ⟨a.word.reverse ++ b,
      a.gap ++ a.sign :: (a.margin ++ (a.value ++ rest)), cap⟩ some = some e :=
    ⟨_, run_assignedValue_eq_some_iff.mpr ⟨a.gap, a.sign, a.margin, a.value, rest,
      ⟨ha.gap, ha.sign, ha.margin, ha.value, ha.long⟩, hrest, rfl, rfl⟩⟩
  rw [run_unquotedSecret, List.findSome?_isSome_iff]
  exact ⟨word, hword, by rwa [hdrop, Option.bind_some, Option.isSome_iff_exists]⟩

end

end Pattern

/-! ## Findings -/

/-- The spans that a rule finds in a line, left to right. -/
def SecretRule.spans (rule : SecretRule) (line : Text) : List Span := (rule.hits line).map Hit.span

namespace SecretFinding

/-- **Quotes never change what is found behind a telling word.** The rule has the hits that it has
without the quotes. Each of them is an announcement, which goes on as far as the characters of values
do; they follow one another without overlap, and every announcement starts in one of them. -/
theorem genericSecret_without_quotes (line : Text) :
    genericSecret.hits line = unquotedSecret.hits line ∧
      (∀ file n, inLine genericSecret file n line =
        (genericSecret.spans line).map (ofSpan genericSecret file n line)) ∧
      (∀ s ∈ genericSecret.spans line, s.IsAnnounced line) ∧
      (genericSecret.spans line).Pairwise (fun a b => a.stop ≤ b.start) ∧
      ∀ s : Span, s.IsAnnounced line →
        ∃ found ∈ genericSecret.spans line, found.start ≤ s.start ∧ s.start < found.stop := by
  obtain ⟨hp, hw⟩ := registry_patterns genericSecret (by simp [registry])
  have hc := cover_hits hp hw line
  refine ⟨hits_congr_some hp hw run_genericSecret line, ?_, ?_, List.pairwise_map.mpr hc.ordered, ?_⟩
  · exact fun file n => inLine_eq_map_ofSpan (fun hit hhit => (hc.isIn hit hhit).1) file n
  · intro s hs
    obtain ⟨hit, hhit, rfl⟩ := List.mem_map.mp hs
    obtain ⟨hle, hrun⟩ := run_of_mem_hits hp hw hhit
    rw [run_genericSecret] at hrun
    obtain ⟨a, rest, ha, hrest, hdrop, hstop⟩ := exists_announcement hrun
    have hcolumn : hit.stop.column = hit.column + a.text.length := by
      rw [hstop, Place.column, List.length_append, List.length_reverse, List.length_reverse,
        List.length_take, Nat.min_eq_left hle, Nat.add_comm]
    exact ⟨a, rest, ha, hdrop, hcolumn, hrest⟩
  · rintro s ⟨a, rest, ha, hdrop, -, hrest⟩
    have hlt : s.start < line.length := by
      have hlen := congrArg List.length hdrop
      simp only [Announcement.text, List.length_drop, List.length_append, List.length_cons] at hlen
      omega
    have hsome : (genericSecret.pattern.run (.atColumn line s.start) some).isSome = true := by
      rw [run_genericSecret, Place.atColumn, hdrop]
      exact isSome_run_unquotedSecret ha hrest
    obtain ⟨hit, hhit, hcover⟩ := exists_hit_of_isSome_run hp hw (Nat.le_of_lt hlt) hsome
    exact ⟨hit.span, List.mem_map_of_mem hhit, hcover⟩

/-- Six letters in quotes are a value of eight characters. -/
example : genericSecret.spans "pwd = \"abcdef\" x".toList = [⟨0, 14⟩] := by
  decide +kernel

end SecretFinding

end EnvAudit
