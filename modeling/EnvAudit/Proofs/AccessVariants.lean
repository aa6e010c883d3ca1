import EnvAudit.Proofs.AccessReadings
import Mathlib.Data.List.TakeWhile

/-!
# Accesses of one variable

A text that is one access and nothing else is read by the form that leads to the name
(`names_find_form`). With a quote behind the name the form reads the whole name or none. Without one
it reads as much as is written in capitals, so that a name that goes on in small letters counts as
its first part: `accesses_of_identifier`.
-/
namespace EnvAudit

namespace AccessForm

/-- Every head has a dot, and is in one line. -/
theorem registry_dots : ∀ f ∈ registry.flatten, '.' ∈ f.head ∧ '\n' ∉ f.head := by
  decide +kernel

/-- Of the forms with one head, one asks for nothing or for a default value behind the name. -/
theorem registry_same_head : ∀ f ∈ registry.flatten, ∀ g ∈ registry.flatten, f.head = g.head →
    f.closing ≠ .default → f = g ∨ f.closing = .nothing := by
  decide +kernel

/-- In a text that starts with a head and has no dot behind it, there is no other access. -/
theorem eq_zero_of_head {f g : AccessForm} (hf : f ∈ registry.flatten) (hg : g ∈ registry.flatten)
    {rest : Text} (hrest : '.' ∉ rest) {d : Nat} (h : g.head <+: (f.head ++ rest).drop d) : d = 0 := by
  by_contra hd
  by_cases hlt : d < f.head.length
  · exact not_head_inside hf hg (List.prefix_append _ _) (Nat.pos_of_ne_zero hd) hlt h
  · rw [List.drop_append, List.drop_of_length_le (Nat.le_of_not_lt hlt), List.nil_append] at h
    exact hrest (List.mem_of_mem_drop (h.subset (registry_dots g hg).1))

/-- A head leads to what stands behind it. -/
theorem name?_head (f : AccessForm) (rest : Text) :
    f.name? (f.head ++ rest) = (f.opening.after? rest).bind fun t =>
      if (f.closing.after? (t.dropWhile AccessRule.isNameChar)).isSome then AccessRule.leadingName? t
      else none := by
  have hhead : f.head.isPrefixOf? (f.head ++ rest) = some rest :=
    List.isPrefixOf?_eq_some_iff_append_eq.mpr rfl
  rw [name?, after?, hhead]
  rfl

end AccessForm

namespace EnvKeyUsage

open AccessRule

section

variable {f : AccessForm} (hf : f ∈ AccessForm.registry.flatten) (hclosing : f.closing ≠ .default)
  {rest : Text}

include hf hclosing

/-- A text with one access is read by its form, at its start. -/
theorem readings_form (hrest : '.' ∉ rest) :
    readings registry (f.head ++ rest) = ((f.name? (f.head ++ rest)).map ((0 : Nat), ·)).toList := by
  refine (isOrdered_readings registry _).ext ?_ fun ⟨column, name⟩ => ?_
  · cases f.name? (f.head ++ rest) with
    | none => exact List.Pairwise.nil
    | some name => exact List.pairwise_singleton _ _
  rw [mem_readings_registry, Option.mem_toList, Option.map_eq_some_iff]
  constructor
  · rintro ⟨g, hg, hname⟩
    obtain rfl := AccessForm.eq_zero_of_head hf hg hrest (AccessForm.head_prefix_of_name? hname)
    rw [List.drop_zero] at hname
    have hhead := AccessForm.head_unique hf hg (List.prefix_append _ _)
      (AccessForm.head_prefix_of_name? hname)
    refine ⟨name, ?_, rfl⟩
    rcases AccessForm.registry_same_head f hf g hg hhead.1 hclosing with rfl | hnothing
    · exact hname
    · rw [AccessForm.name?_of_nothing hnothing, AccessForm.after?_congr hhead]
      exact AccessForm.name?_eq hname
  · rintro ⟨_, hname, heq⟩
    cases heq
    exact ⟨f, hf, hname⟩

theorem names_find_form (hrest : '.' ∉ rest) (hline : '\n' ∉ rest) (file : Text) :
    names (find registry (f.head ++ rest) file) = (f.name? (f.head ++ rest)).toList := by
  have hlines : Text.lines (f.head ++ rest) = [f.head ++ rest] := by
    refine Text.splitOn_of_not_mem fun h => ?_
    rcases List.mem_append.mp h with h | h
    · exact (AccessForm.registry_dots f hf).2 h
    · exact hline h
  rw [find, hlines, inLines, inLine, readings_form hf hclosing hrest]
  cases f.name? (f.head ++ rest) <;> rfl

end

/-! ## Identifiers -/

/-- Whether a text is an identifier: a letter of ASCII or an underscore, and then letters, digits
and underscores. -/
def isIdentifier : Text → Bool
  | [] => false
  | c :: rest => (c.isAlpha || c == '_') && rest.all fun d => d.isAlphanum || d == '_'

theorem ne_nil_of_isIdentifier {x : Text} (hx : isIdentifier x = true) : x ≠ [] := by
  rintro rfl
  cases hx

theorem not_mem_of_isIdentifier {x : Text} (hx : isIdentifier x = true) {c : Char}
    (hc : (c.isAlphanum || c == '_') = false) : c ∉ x := by
  cases x with
  | nil => simp
  | cons d rest =>
    rw [isIdentifier, Bool.and_eq_true, List.all_eq_true] at hx
    intro hmem
    rcases List.mem_cons.mp hmem with rfl | hmem
    · have halpha : c.isAlphanum = true ∨ c = '_' := by
        rcases Bool.or_eq_true_iff.mp hx.1 with h | h
        · exact .inl (by rw [Char.isAlphanum, h, Bool.true_or])
        · exact .inr (beq_iff_eq.mp h)
      simp_all
    · simp [hx.2 c hmem] at hc

theorem not_mem_append_of_isIdentifier {x back : Text} (hx : isIdentifier x = true) {c : Char}
    (hc : (c.isAlphanum || c == '_') = false) (hback : c ∉ back) : c ∉ x ++ back := by
  intro h
  rcases List.mem_append.mp h with h | h
  · exact not_mem_of_isIdentifier hx hc h
  · exact hback h

/-- An identifier in capitals is a name. -/
theorem leadingName?_of_all {x : Text} (hx : isIdentifier x = true)
    (hall : x.all isNameChar = true) : leadingName? x = some x := by
  cases x with
  | nil => cases hx
  | cons c rest =>
    rw [isIdentifier, Bool.and_eq_true, Bool.or_eq_true] at hx
    have hchar : isNameStart c = true ∨ isAsciiDigit c = true :=
      Bool.or_eq_true_iff.mp (List.all_eq_true.mp hall c List.mem_cons_self)
    have hstart : isNameStart c = true := by
      rcases hx.1 with halpha | hunder
      · refine hchar.resolve_right fun hdigit => ?_
        have hrange : 48 ≤ c.toNat ∧ c.toNat ≤ 57 := by
          simpa [isAsciiDigit] using hdigit
        rcases Bool.or_eq_true_iff.mp halpha with h | h
        · rw [isUpper_iff] at h
          omega
        · rw [isLower_iff] at h
          omega
      · rw [isNameStart, hunder, Bool.or_true]
    rw [leadingName?, List.head?_cons, Option.any_some, if_pos hstart,
      List.takeWhile_eq_self_iff.mpr (List.all_eq_true.mp hall)]

/-- With a quote behind it, an identifier is read as a whole or not at all. -/
theorem leadingName?_closed {x back : Text} (hx : isIdentifier x = true) {closing : NameEdge}
    (hclosing : closing = .quote ∨ closing = .indexEnd) (hback : (closing.after? back).isSome = true) :
    (if (closing.after? ((x ++ back).dropWhile isNameChar)).isSome then leadingName? (x ++ back)
      else none) = if x.all isNameChar then some x else none := by
  have hsome : closing ≠ .nothing := by rcases hclosing with h | h <;> simp [h]
  have hhead : back.head?.any isNameChar = false := by
    cases back with
    | nil => rfl
    | cons c t =>
      rw [List.head?_cons, Option.any_some, Bool.eq_false_iff]
      intro hchar
      rw [NameEdge.after?_of_isNameChar hsome hchar] at hback
      cases hback
  rw [List.dropWhile_append, leadingName?_append (ne_nil_of_isIdentifier hx) hhead]
  by_cases hall : x.all isNameChar = true
  · -- behind the name stands what closes it
    have hend : back.dropWhile isNameChar = back := by
      cases back with
      | nil => rfl
      | cons c t => exact List.dropWhile_cons_of_neg (Bool.eq_false_iff.mp hhead)
    have hnil : x.dropWhile isNameChar = [] :=
      List.dropWhile_eq_nil_iff.mpr (List.all_eq_true.mp hall)
    simp [hall, hnil, hend, hback, leadingName?_of_all hx hall]
  · -- behind the first part of the identifier stands another part, and no quote
    cases hdrop : x.dropWhile isNameChar with
    | nil => exact absurd (List.all_eq_true.mpr (List.dropWhile_eq_nil_iff.mp hdrop)) hall
    | cons c t =>
      have hc : c ∈ x := (List.dropWhile_suffix _).subset (hdrop ▸ List.mem_cons_self)
      have hquote : Pattern.afterQuote? (c :: (t ++ back)) = none := by
        apply Pattern.afterQuote?_of_ne
        all_goals
          rintro rfl
          exact not_mem_of_isIdentifier hx (by decide) hc
      have hclosed : closing.after? (c :: (t ++ back)) = none := by
        rcases hclosing with h | h <;> simp [h, NameEdge.after?, hquote]
      simp [hall, hclosed]

/-! ## Accesses -/

section

variable {f : AccessForm} (hf : f ∈ AccessForm.registry.flatten) {x back : Text}
  (hx : isIdentifier x = true) (hdot : '.' ∉ back) (hline : '\n' ∉ back) (file : Text)

include hf hx hdot hline

theorem names_find_member (hopening : f.opening = .nothing) (hclosing : f.closing = .nothing)
    (hback : back.head?.any isNameChar = false) :
    names (find registry (f.head ++ (x ++ back)) file) = (leadingName? x).toList := by
  have hdot' : '.' ∉ x ++ back := not_mem_append_of_isIdentifier hx (by decide) hdot
  have hline' : '\n' ∉ x ++ back := not_mem_append_of_isIdentifier hx (by decide) hline
  rw [names_find_form hf (by simp [hclosing]) hdot' hline', AccessForm.name?_head, hopening, hclosing]
  have hname := leadingName?_append (ne_nil_of_isIdentifier hx) hback
  simp [NameEdge.after?, hname]

theorem names_find_quoted {q : Char} (hq : q = '\'' ∨ q = '"')
    (hopening : f.opening = .quote ∨ f.opening = .paddedQuote)
    (hclosing : f.closing = .quote ∨ f.closing = .indexEnd)
    (hback : (f.closing.after? back).isSome = true) :
    names (find registry (f.head ++ q :: (x ++ back)) file) =
      if x.all isNameChar then [x] else [] := by
  have hrest : ∀ c, c ∉ x ++ back → c ≠ '\'' ∧ c ≠ '"' → c ∉ q :: (x ++ back) := by
    intro c hc hne hmem
    rcases List.mem_cons.mp hmem with rfl | hmem
    · exact hq.elim hne.1 hne.2
    · exact hc hmem
  have hdot' := hrest '.' (not_mem_append_of_isIdentifier hx (by decide) hdot) (by decide)
  have hline' := hrest '\n' (not_mem_append_of_isIdentifier hx (by decide) hline) (by decide)
  have hopen : f.opening.after? (q :: (x ++ back)) = some (x ++ back) := by
    rcases hq with rfl | rfl <;> rcases hopening with h | h <;> rw [h] <;> rfl
  rw [names_find_form hf (by rcases hclosing with h | h <;> simp [h]) hdot' hline',
    AccessForm.name?_head, hopen, Option.bind_some, leadingName?_closed hx hclosing hback]
  split <;> rfl

end

/-! ## The variants of an access -/

/-- What stands before and behind the name where it stands in quotes. -/
def quotedAccesses : List (Text × Text) :=
  [("process.env['".toList, "']".toList), ("process.env[\"".toList, "\"]".toList),
    ("import.meta.env['".toList, "']".toList), ("os.environ['".toList, "']".toList),
    ("os.environ.get('".toList, "')".toList), ("os.getenv('".toList, "')".toList)]

/-- What stands before and behind the name where it is a member. -/
def memberAccesses : List (Text × Text) :=
  [("process.env.".toList, []), ("process.env?.".toList, []),
    ("process.env.".toList, " ?? 0".toList), ("import.meta.env.".toList, [])]

/-- What an access is read as. -/
def namesOfAccess (access : Text × Text) (x file : Text) : List Text :=
  names (find registry (access.1 ++ x ++ access.2) file)

/-- A form leads to each access that quotes the name. -/
theorem quotedAccesses_forms : ∀ a ∈ quotedAccesses,
    ∃ f ∈ AccessForm.registry.flatten,
      (a.1 = f.head ++ ['\''] ∨ a.1 = f.head ++ ['"']) ∧
      (f.opening = .quote ∨ f.opening = .paddedQuote) ∧
      (f.closing = .quote ∨ f.closing = .indexEnd) ∧
      (f.closing.after? a.2).isSome = true ∧ '.' ∉ a.2 ∧ '\n' ∉ a.2 := by
  decide +kernel

/-- A form leads to each access of a member. -/
theorem memberAccesses_forms : ∀ a ∈ memberAccesses,
    ∃ f ∈ AccessForm.registry.flatten, a.1 = f.head ∧ f.opening = .nothing ∧
      f.closing = .nothing ∧ a.2.head?.any isNameChar = false ∧ '.' ∉ a.2 ∧ '\n' ∉ a.2 := by
  decide +kernel

section

variable {x : Text} (hx : isIdentifier x = true) (file : Text)

include hx

theorem namesOfAccess_quoted : ∀ a ∈ quotedAccesses,
    namesOfAccess a x file = if x.all isNameChar then [x] else [] := by
  intro a ha
  obtain ⟨f, hf, hfront, hopening, hclosing, hback, hdot, hline⟩ := quotedAccesses_forms a ha
  obtain ⟨q, hq, hfront⟩ : ∃ q, (q = '\'' ∨ q = '"') ∧ a.1 = f.head ++ [q] := by
    rcases hfront with h | h
    · exact ⟨_, .inl rfl, h⟩
    · exact ⟨_, .inr rfl, h⟩
  rw [← names_find_quoted hf hx hdot hline file hq hopening hclosing hback, namesOfAccess, hfront]
  simp

theorem namesOfAccess_member : ∀ a ∈ memberAccesses,
    namesOfAccess a x file = (leadingName? x).toList := by
  intro a ha
  obtain ⟨f, hf, hfront, hopening, hclosing, hback, hdot, hline⟩ := memberAccesses_forms a ha
  rw [← names_find_member hf hx hdot hline file hopening hclosing hback, namesOfAccess, hfront]
  simp

end

/-- **What the variants of an access are read as.** Where the name stands in quotes, an identifier
is read if it is all in capitals, digits and underscores. A member is read as the part up to the
first other letter. So the variants agree for such identifiers and for those that start with another
letter, and for no others. -/
theorem accesses_of_identifier {x : Text} (hx : isIdentifier x = true) (file : Text) :
    (∀ a ∈ quotedAccesses, namesOfAccess a x file = if x.all isNameChar then [x] else []) ∧
      (∀ a ∈ memberAccesses, namesOfAccess a x file = (leadingName? x).toList) ∧
      ((∀ a ∈ quotedAccesses ++ memberAccesses,
        namesOfAccess a x file = if x.all isNameChar then [x] else []) ↔
          x.all isNameChar = true ∨ leadingName? x = none) := by
  have hquoted := namesOfAccess_quoted hx file
  have hmember := namesOfAccess_member hx file
  refine ⟨hquoted, hmember, ?_⟩
  rw [List.forall_mem_append, and_iff_right hquoted]
  constructor
  · intro h
    by_cases hall : x.all isNameChar = true
    · exact .inl hall
    · have hfirst := h ("process.env.".toList, []) List.mem_cons_self
      rw [hmember _ List.mem_cons_self, if_neg hall] at hfirst
      exact .inr (Option.toList_eq_nil_iff.mp hfirst)
  · rintro (hall | hnone) a ha
    · rw [hmember a ha, leadingName?_of_all hx hall, if_pos hall]
      rfl
    · have hall : ¬ x.all isNameChar = true := by
        intro hall
        rw [leadingName?_of_all hx hall] at hnone
        cases hnone
      rw [hmember a ha, hnone, if_neg hall]
      rfl

/-- A member whose name goes on in small letters is read as its first part. -/
theorem accesses_of_identifier_mixedCase :
    isIdentifier "FOObar".toList = true ∧
      (∀ a ∈ quotedAccesses, namesOfAccess a "FOObar".toList "a.js".toList = []) ∧
      ∀ a ∈ memberAccesses, namesOfAccess a "FOObar".toList "a.js".toList = ["FOO".toList] := by
  have hx : isIdentifier "FOObar".toList = true := by decide
  obtain ⟨hquoted, hmember, -⟩ := accesses_of_identifier hx "a.js".toList
  exact ⟨hx, hquoted, hmember⟩

/-- The variants of an access do not agree for every identifier. -/
theorem accesses_disagree :
    ¬ ∀ x file : Text, isIdentifier x = true → ∀ a ∈ quotedAccesses ++ memberAccesses,
      namesOfAccess a x file = if x.all isNameChar then [x] else [] := by
  intro h
  have hread : namesOfAccess ("process.env.".toList, []) "FOObar".toList "a.js".toList =
      ["FOO".toList] := by
    decide +kernel
  have hmem : ("process.env.".toList, []) ∈ quotedAccesses ++ memberAccesses := by decide
  have hclaim := h "FOObar".toList "a.js".toList (by decide) _ hmem
  rw [hread] at hclaim
  exact absurd hclaim (by decide)

end EnvKeyUsage
end EnvAudit
