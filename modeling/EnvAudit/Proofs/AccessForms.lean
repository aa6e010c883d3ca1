import EnvAudit.EnvVar.AccessRule
import EnvAudit.Proofs.GreedyRuns
import EnvAudit.Proofs.HitColumns
import EnvAudit.Proofs.KeyLetters
import EnvAudit.Proofs.PatternText
import Mathlib.Data.List.Forall2

/-!
# Forms of access

A form of access is a head, which leads to the name of a variable, with what may stand around the
name: white space, quotes, a bracket, the sign of a default value. It reads a text without
backtracking (`AccessForm.name?`), and every rule of the registry captures what one or two forms read
(`registry_choices`).
-/
namespace EnvAudit

/-! ## Names -/

namespace AccessRule

/-- A character that the name of a variable can start with. -/
def isNameStart (c : Char) : Bool := c.isUpper || c == '_'

/-- A character of the name of a variable. -/
def isNameChar (c : Char) : Bool := isNameStart c || isAsciiDigit c

/-- The name that a text starts with, as long as it can be. -/
def leadingName? (t : Text) : Option Text :=
  if t.head?.any isNameStart then some (t.takeWhile isNameChar) else none

theorem ne_nil_of_leadingName? {t name : Text} (h : leadingName? t = some name) : name ≠ [] := by
  rw [leadingName?] at h
  split at h
  · rename_i hstart
    cases h
    cases t with
    | nil => cases hstart
    | cons c t =>
      have hc : isNameChar c = true := by
        rw [List.head?_cons, Option.any_some] at hstart
        rw [isNameChar, hstart, Bool.true_or]
      rw [List.takeWhile_cons_of_pos hc]
      exact List.cons_ne_nil _ _
  · cases h

/-- A name ends before what is no part of one. -/
theorem leadingName?_append {t back : Text} (hne : t ≠ [])
    (hback : back.head?.any isNameChar = false) :
    leadingName? (t ++ back) = leadingName? t := by
  have hstop : back.takeWhile isNameChar = [] := by
    cases back with
    | nil => rfl
    | cons c back => exact List.takeWhile_cons_of_neg (Bool.eq_false_iff.mp hback)
  have htake : (t ++ back).takeWhile isNameChar = t.takeWhile isNameChar := by
    rw [List.takeWhile_append, hstop, List.append_nil]
    split
    · rename_i hlen
      exact ((List.takeWhile_prefix _).eq_of_length hlen).symm
    · rfl
  rw [leadingName?, leadingName?, List.head?_append_of_ne_nil t hne, htake]

theorem isBlank_of_isNameChar {c : Char} (h : isNameChar c = true) : isBlank c = false := by
  rw [Bool.eq_false_iff]
  intro hblank
  have hcode := toNat_mem_blankCodes hblank
  simp only [blankCodes, List.mem_cons, List.not_mem_nil, or_false] at hcode
  simp only [isNameChar, isNameStart, Bool.or_eq_true, isUpper_iff, beq_iff_eq, isAsciiDigit,
    Bool.and_eq_true, decide_eq_true_eq] at h
  rcases h with (h | rfl) | h
  · omega
  · exact absurd hblank (by decide)
  · have hdigit : 48 ≤ c.toNat ∧ c.toNat ≤ 57 := h
    omega

theorem accepts_nameStart (c : Char) :
    CharClass.accepts { items := [.range 'A' 'Z', .char '_'] } c = isNameStart c := by
  have hupper : (ClassItem.range 'A' 'Z').covers c = c.isUpper := by
    rw [Bool.eq_iff_iff, isUpper_iff]
    simp only [ClassItem.covers, Bool.and_eq_true, decide_eq_true_eq]
    exact Iff.rfl
  simp only [CharClass.accepts, CharClass.names, List.any_cons, List.any_nil, hupper,
    Bool.or_false, Bool.bne_false, Bool.false_eq_true, if_false]
  rfl

theorem accepts_nameChar (c : Char) :
    CharClass.accepts { items := [.range 'A' 'Z', .range '0' '9', .char '_'] } c = isNameChar c := by
  have hstart := accepts_nameStart c
  simp only [CharClass.accepts, CharClass.names, List.any_cons, List.any_nil, Bool.or_false,
    Bool.bne_false, Bool.false_eq_true, if_false] at hstart ⊢
  rw [isNameChar, ← hstart, Bool.or_assoc, Bool.or_comm (ClassItem.covers _ c) (ClassItem.covers _ c)]
  rfl

theorem isNameChar_of_accepts_first {c : Char}
    (h : CharClass.accepts { items := [.range 'A' 'Z', .char '_'] } c = true) :
    CharClass.accepts { items := [.range 'A' 'Z', .range '0' '9', .char '_'] } c = true := by
  rw [accepts_nameStart] at h
  rw [accepts_nameChar, isNameChar, h, Bool.true_or]

end AccessRule

/-! ## What a pattern captures -/

namespace Pattern

open AccessRule

/-- Whether a function of the text, and of what was captured before it, says where a pattern matches
and what its group has then. -/
def Captures (p : Pattern) (read : Text → Option Text → Option (Option Text)) : Prop :=
  ∀ b t cap, (p.run ⟨b, t, cap⟩ some).map (·.captured) = read t cap

theorem run_seqs_cons (p : Pattern) (ps : List Pattern) (s : Place) (k : Continuation) :
    (seqs (p :: ps)).run s k = p.run s fun e => (seqs ps).run e k := by
  cases ps <;> rfl

/-- A literal is taken off the front of a text. -/
theorem run_literal (s : Text) (b t : Text) (cap : Option Text) (k : Continuation) :
    (literal s).run ⟨b, t, cap⟩ k =
      (s.isPrefixOf? t).bind fun rest => k ⟨s.reverse ++ b, rest, cap⟩ := by
  induction s generalizing b t with
  | nil => rfl
  | cons c s ih =>
    have hcons : literal (c :: s) = seqs (.one (.single c) :: s.map fun c => .one (.single c)) := rfl
    rw [hcons, run_seqs_cons]
    cases t with
    | nil => rfl
    | cons d t =>
      have hchar : run (.one (.single c)) ⟨b, d :: t, cap⟩ (fun e => (literal s).run e k) =
          if d == c then (literal s).run ⟨d :: b, t, cap⟩ k else none := by
        simp [run, Place.next]
      refine hchar.trans ?_
      by_cases hdc : d = c
      · subst hdc
        simp [List.isPrefixOf?, ih]
      · simp [List.isPrefixOf?, hdc, Ne.symm hdc]

/-- The text behind a single or a double quote. -/
def afterQuote? : Text → Option Text
  | c :: t => if c == '\'' || c == '"' then some t else none
  | [] => none

theorem afterQuote?_of_ne {c : Char} (h : c ≠ '\'') (h' : c ≠ '"') (t : Text) :
    afterQuote? (c :: t) = none := by
  simp [afterQuote?, h, h']

namespace Captures

variable {p q : Pattern} {read other : Text → Option Text → Option (Option Text)}

theorem run_eq_none (h : Captures p read) {b t : Text} {cap : Option Text}
    (ht : read t cap = none) : p.run ⟨b, t, cap⟩ some = none :=
  Option.map_eq_none_iff.mp ((h b t cap).trans ht)

/-- What the group has after a match is what is read. -/
theorem bind_captured {name? : Text → Option Text} (h : Captures p fun t _ => (name? t).map some)
    (b t : Text) (cap : Option Text) :
    (p.run ⟨b, t, cap⟩ some).bind (·.captured) = name? t := by
  have hmap := h b t cap
  cases hrun : p.run ⟨b, t, cap⟩ some with
  | none =>
    rw [hrun] at hmap
    exact (Option.map_eq_none_iff.mp hmap.symm).symm
  | some e =>
    rw [hrun] at hmap
    obtain ⟨name, hname, hcaptured⟩ := Option.map_eq_some_iff.mp hmap.symm
    rw [hname]
    exact hcaptured.symm

theorem empty : Captures .empty fun _ cap => some cap := fun _ _ _ => rfl

theorem literal (h : Captures p read) (s : Text) :
    Captures (seq (Pattern.literal s) p) fun t cap => (s.isPrefixOf? t).bind (read · cap) := by
  intro b t cap
  have hrun : (seq (Pattern.literal s) p).run ⟨b, t, cap⟩ some =
      (s.isPrefixOf? t).bind fun rest => p.run ⟨s.reverse ++ b, rest, cap⟩ some :=
    run_literal ..
  rw [hrun, Option.map_bind]
  exact Option.bind_congr fun rest _ => h ..

theorem quote (h : Captures p read) :
    Captures (seq AccessRule.quote p) fun t cap => (afterQuote? t).bind (read · cap) := by
  intro b t cap
  cases t with
  | nil => rfl
  | cons c t =>
    have hrun : (seq AccessRule.quote p).run ⟨b, c :: t, cap⟩ some =
        if c == '\'' || c == '"' then p.run ⟨c :: b, t, cap⟩ some else none := by
      simp [AccessRule.quote, oneOf, run, CharClass.accepts, CharClass.names, ClassItem.covers,
        Place.next]
    simp only [hrun, afterQuote?]
    split
    · exact h ..
    · rfl

/-- White space goes to its end, if nothing is read from inside it. -/
theorem blanks (h : Captures p read)
    (hblank : ∀ c t cap, isBlank c = true → read (c :: t) cap = none) :
    Captures (seq Pattern.blanks p) fun t cap => read (Text.stripLeft t) cap := by
  intro b t cap
  have haccepts : ∀ c, CharClass.accepts { items := [.blank] } c = isBlank c := by
    intro c
    simp [CharClass.accepts, CharClass.names, ClassItem.covers]
  have hrun : (seq Pattern.blanks p).run ⟨b, t, cap⟩ some = _ :=
    run_atLeast_of_none { items := [.blank] } t fun b c a hc =>
      h.run_eq_none (hblank c a cap (by rwa [haccepts] at hc))
  rw [funext haccepts] at hrun
  rw [hrun]
  exact h ..

/-- A name goes to its end, if what follows always goes on from there or never from inside it. -/
theorem name (h : Captures p read)
    (hend : (∀ t cap, read t cap ≠ none) ∨
      ∀ c t cap, isNameChar c = true → read (c :: t) cap = none) :
    Captures (seq variableName p) fun t _ =>
      (leadingName? t).bind fun name => read (t.dropWhile isNameChar) (some name) := by
  intro b t cap
  have hstart := funext accepts_nameStart
  have hchar := funext accepts_nameChar
  have hrun := run_group_word b t cap (k := fun e => p.run e some)
    (fun c => isNameChar_of_accepts_first) fun hnone b c a cap hc => by
      rw [hchar] at hnone hc
      rcases hend with hend | hend
      · exact absurd ((h ..).symm.trans (congrArg (Option.map (·.captured)) hnone)) (hend _ _)
      · exact h.run_eq_none (hend c a cap hc)
  rw [hstart, hchar] at hrun
  refine (congrArg (Option.map (·.captured)) hrun).trans ?_
  simp only [leadingName?]
  split
  · exact h ..
  · rfl

/-- Of two patterns the first that matches captures. -/
theorem alt (hp : Captures p read) (hq : Captures q other) :
    Captures (.alt p q) fun t cap => (read t cap).or (other t cap) := by
  intro b t cap
  have hrun : (Pattern.alt p q).run ⟨b, t, cap⟩ some =
      (p.run ⟨b, t, cap⟩ some).or (q.run ⟨b, t, cap⟩ some) := by
    rw [run]
    cases p.run ⟨b, t, cap⟩ some <;> rfl
  rw [hrun, Option.map_or, hp b t cap, hq b t cap]

end Captures
end Pattern

/-! ## Forms -/

open Pattern AccessRule

/-- What stands beside a name. -/
inductive NameEdge where
  | nothing
  | quote
  /-- A quote behind white space. -/
  | paddedQuote
  /-- A quote and the end of an index. -/
  | indexEnd
  /-- The sign of a default value behind white space. -/
  | default
deriving DecidableEq, Repr

namespace NameEdge

def pattern : NameEdge → Pattern
  | .nothing => .empty
  | .quote => AccessRule.quote
  | .paddedQuote => .seq blanks AccessRule.quote
  | .indexEnd => .seq AccessRule.quote (literal "]".toList)
  | .default => .seq blanks (literal "??".toList)

/-- The text behind it. -/
def after? : NameEdge → Text → Option Text
  | .nothing, t => some t
  | .quote, t => afterQuote? t
  | .paddedQuote, t => afterQuote? (Text.stripLeft t)
  | .indexEnd, t => (afterQuote? t).bind "]".toList.isPrefixOf?
  | .default, t => "??".toList.isPrefixOf? (Text.stripLeft t)

theorem captures {p : Pattern} {read : Text → Option Text → Option (Option Text)}
    (h : Captures p read) (edge : NameEdge) :
    Captures (seq edge.pattern p) fun t cap => (edge.after? t).bind (read · cap) := by
  cases edge with
  | nothing => exact h
  | quote => exact h.quote
  | paddedQuote =>
    refine h.quote.blanks fun c t cap hc => ?_
    rw [afterQuote?_of_ne]
    · rfl
    all_goals
      rintro rfl
      exact absurd hc (by decide)
  | indexEnd =>
    have hread := (h.literal "]".toList).quote
    simp only [after?, Option.bind_assoc]
    exact hread
  | default =>
    refine (h.literal "??".toList).blanks fun c t cap hc => ?_
    have hne : ('?' == c) = false := by
      rw [beq_eq_false_iff_ne]
      rintro rfl
      exact absurd hc (by decide)
    simp [List.isPrefixOf?, hne]

/-- No character of a name stands beside it, unless nothing does. -/
theorem after?_of_isNameChar {edge : NameEdge} (hne : edge ≠ .nothing) {c : Char}
    (hc : isNameChar c = true) (t : Text) : edge.after? (c :: t) = none := by
  have hquote : afterQuote? (c :: t) = none := by
    apply afterQuote?_of_ne
    all_goals
      rintro rfl
      exact absurd hc (by decide)
  have hleft : Text.stripLeft (c :: t) = c :: t := Text.stripLeft_eq_self fun d hd => by
    cases hd
    exact isBlank_of_isNameChar hc
  have hsign : ('?' == c) = false := by
    rw [beq_eq_false_iff_ne]
    rintro rfl
    exact absurd hc (by decide)
  cases edge with
  | nothing => exact absurd rfl hne
  | quote => exact hquote
  | paddedQuote => simp [after?, hleft, hquote]
  | indexEnd => simp [after?, hquote]
  | default => simp [after?, hleft, List.isPrefixOf?, hsign]

end NameEdge

/-- A form of access: what leads to the name, and what stands around it. -/
structure AccessForm where
  head : Text
  opening : NameEdge
  closing : NameEdge
deriving DecidableEq, Repr

namespace AccessForm

/-- The pattern of what stands behind the head. -/
def tail (f : AccessForm) : Pattern := seqs [f.opening.pattern, variableName, f.closing.pattern]

def pattern (f : AccessForm) : Pattern := .seq (literal f.head) f.tail

/-- The text from the name on. -/
def after? (f : AccessForm) (t : Text) : Option Text := (f.head.isPrefixOf? t).bind f.opening.after?

/-- The name that a text reads which starts with the form. -/
def name? (f : AccessForm) (t : Text) : Option Text :=
  (f.after? t).bind fun rest =>
    if (f.closing.after? (rest.dropWhile isNameChar)).isSome then leadingName? rest else none

/-- **A form captures the name that it reads.** -/
theorem captures (f : AccessForm) : Captures f.pattern fun t _ => (f.name? t).map some := by
  have hname : Captures (seq variableName (seq f.closing.pattern .empty)) _ :=
    (f.closing.captures .empty).name (by
      by_cases hclosing : f.closing = .nothing
      · left
        simp [hclosing, NameEdge.after?]
      · right
        intro c t cap hc
        rw [NameEdge.after?_of_isNameChar hclosing hc]
        rfl)
  have hform := (f.opening.captures hname).literal f.head
  intro b t cap
  refine (hform b t cap).trans ?_
  have hrest : ∀ rest : Text,
      ((leadingName? rest).bind fun name =>
        (f.closing.after? (rest.dropWhile isNameChar)).bind fun _ => some (some name)) =
      Option.map some
        (if (f.closing.after? (rest.dropWhile isNameChar)).isSome then leadingName? rest
          else none) := by
    intro rest
    cases leadingName? rest <;> cases f.closing.after? (rest.dropWhile isNameChar) <;> rfl
  simp only [name?, after?]
  cases f.head.isPrefixOf? t with
  | none => rfl
  | some rest =>
    simp only [Option.bind_some]
    cases f.opening.after? rest with
    | none => rfl
    | some rest => exact hrest rest

/-! ## The forms of the registry -/

/-- The forms that each rule of the registry chooses from. -/
def registry : List (List AccessForm) :=
  [[⟨"process.env.".toList, .nothing, .nothing⟩],
    [⟨"process.env[".toList, .quote, .indexEnd⟩],
    [⟨"process.env?.".toList, .nothing, .nothing⟩],
    [⟨"import.meta.env.".toList, .nothing, .nothing⟩],
    [⟨"import.meta.env[".toList, .quote, .indexEnd⟩],
    [⟨"process.env.".toList, .nothing, .default⟩],
    [⟨"os.environ[".toList, .quote, .indexEnd⟩],
    [⟨"os.environ.get(".toList, .paddedQuote, .quote⟩, ⟨"os.getenv(".toList, .paddedQuote, .quote⟩]]

/-- The heads of two forms of the registry are the same or none starts with the other. -/
theorem registry_heads : ∀ f ∈ registry.flatten, ∀ g ∈ registry.flatten, f.head <+: g.head →
    f.head = g.head ∧ f.opening = g.opening := by
  decide +kernel

/-- No head starts inside another one. -/
theorem registry_heads_apart : ∀ f ∈ registry.flatten, ∀ g ∈ registry.flatten,
    ∀ d < f.head.length, 0 < d → ¬ f.head.drop d <+: g.head ∧ ¬ g.head <+: f.head.drop d := by
  decide +kernel

/-- No head starts behind another one before the form ends. -/
theorem registry_tails : ∀ f ∈ registry.flatten, ∀ g ∈ registry.flatten,
    g.head.head?.any (f.tail.rejects ·) = true := by
  decide +kernel

theorem registry_name?_nil : ∀ f ∈ registry.flatten, f.name? [] = none := by
  decide +kernel

theorem registry_regular : ∀ fs ∈ registry, (alts (fs.map pattern)).isRegular = true ∧
    0 < ((alts (fs.map pattern)).width (0, none)).1 := by
  decide +kernel

end AccessForm

/-! ## Rules as choices of forms -/

/-- Whether a rule does what the choice between forms does. -/
structure AccessRule.IsChoice (rule : AccessRule) (fs : List AccessForm) : Prop where
  nonempty : fs ≠ []
  run_eq : ∀ s k, rule.pattern.run s k = (alts (fs.map (·.pattern))).run s k

theorem AccessRule.isChoice_one {rule : AccessRule} {f : AccessForm}
    (h : ∀ s k, rule.pattern.run s k = f.pattern.run s k) : rule.IsChoice [f] :=
  ⟨List.cons_ne_nil _ _, h⟩

/-- A literal leads to one place, so it may stand before a choice or in it. -/
theorem Pattern.run_literal_alt (t : Text) (p q : Pattern) (s : Place) (k : Continuation) :
    (seq (literal t) (.alt p q)).run s k =
      (Pattern.alt (seq (literal t) p) (seq (literal t) q)).run s k := by
  obtain ⟨b, a, cap⟩ := s
  simp only [run, run_literal]
  cases t.isPrefixOf? a <;> rfl

/-- The two functions of one rule stand behind the same object, and before the same argument. -/
theorem AccessRule.isChoice_lookup :
    AccessRule.IsChoice
      ⟨seqs [literal "os.".toList, alt (literal "environ.get".toList) (literal "getenv".toList),
        literal "(".toList, atLeast 0 (oneOf [.blank]), AccessRule.quote, variableName,
        AccessRule.quote]⟩
      [⟨"os.environ.get(".toList, .paddedQuote, .quote⟩,
        ⟨"os.getenv(".toList, .paddedQuote, .quote⟩] := by
  refine ⟨List.cons_ne_nil _ _, fun s k => ?_⟩
  let argument := seqs [literal "(".toList, blanks, AccessRule.quote, variableName, AccessRule.quote]
  exact run_literal_alt "os.".toList (seq (literal "environ.get".toList) argument)
    (seq (literal "getenv".toList) argument) s k

/-- **The rules of the registry are choices of its forms.** -/
theorem AccessRule.registry_choices :
    List.Forall₂ AccessRule.IsChoice AccessRule.registry AccessForm.registry := by
  refine .cons ?_ (.cons ?_ (.cons ?_ (.cons ?_ (.cons ?_ (.cons ?_ (.cons ?_
    (.cons AccessRule.isChoice_lookup .nil)))))))
  all_goals exact AccessRule.isChoice_one fun _ _ => rfl

end EnvAudit
