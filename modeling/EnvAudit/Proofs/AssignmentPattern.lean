import EnvAudit.Proofs.ExampleReparse
import EnvAudit.Proofs.GreedyRuns
import EnvAudit.Proofs.KeyLetters
import Mathlib.Data.List.DropRight

/-!
# Assignments as a pattern

An assignment is what a pattern with three runs of white space finds in a line
(`assignment?_eq_captured`). The pattern backtracks, and there is nothing to go back to: behind
white space stands a key or an equals sign, and behind a key one of these, so that no run can end
earlier than its class does (`run_atLeast_of_none`). The last runs go on to the end of the line
(`run_atLeast_of_some`).
-/
namespace EnvAudit

namespace Pattern

/-! ## The pattern of an assignment -/

/-- A pattern, with the group around it or without. -/
def grouped (there : Bool) (p : Pattern) : Pattern := if there then .group p else p

/-- A key in a pattern that ignores case. -/
def key : Pattern :=
  .seq (oneOf [.range 'A' 'Z', .char '_'])
    (atLeast 0 (oneOf [.range 'A' 'Z', .range '0' '9', .char '_']))

/-- What follows the equals sign: white space, and the value up to the end of the line. -/
def valueToEnd (valued : Bool) : Pattern :=
  seqs [blanks, grouped valued (atLeast 0 (noneOf [.char '\n'])), .anchor .lastLineEnd]

/-- What follows a key: an equals sign behind white space, and the value. -/
def afterKey (valued : Bool) : Pattern := seqs [blanks, literal ['='], valueToEnd valued]

/-- An assignment as a pattern, whose group is the key or the value. -/
def assignment (keyed : Bool) : Pattern :=
  (seqs [.anchor .textStart, blanks, grouped keyed key, afterKey !keyed]).ignoringCase

/-! ## Runs of its parts -/

open EnvEntry

section

variable {b a v : Text} {cap : Option Text} {k : Continuation}

theorem run_blanks_of_none (hk : ∀ b c a, isBlank c = true → k ⟨b, c :: a, cap⟩ = none) :
    blanks.ignoringCase.run ⟨b, a, cap⟩ k =
      k ⟨(a.takeWhile isBlank).reverse ++ b, Text.stripLeft a, cap⟩ := by
  have hrun := run_atLeast_of_none { items := [.blank], ignoreCase := true } (b := b) a
    fun b c a hc => hk b c a (by rwa [CharClass.accepts_blank] at hc)
  rwa [funext CharClass.accepts_blank] at hrun

theorem run_blanks_of_some {e : Place}
    (hk : k ⟨(a.takeWhile isBlank).reverse ++ b, Text.stripLeft a, cap⟩ = some e) :
    blanks.ignoringCase.run ⟨b, a, cap⟩ k = some e := by
  refine run_atLeast_of_some { items := [.blank], ignoreCase := true } ?_
  rwa [funext CharClass.accepts_blank]

theorem run_value (valued : Bool) (hv : '\n' ∉ v) :
    (grouped valued (atLeast 0 (noneOf [.char '\n']))).ignoringCase.run ⟨b, v, cap⟩
        (fun e => (Pattern.anchor .lastLineEnd).run e some) =
      some ⟨v.reverse ++ b, [], if valued then some v else cap⟩ := by
  let cls : CharClass := { items := [.char '\n'], negated := true, ignoreCase := true }
  have hall : ∀ c ∈ v, cls.accepts c = true := by
    intro c hc
    rw [CharClass.accepts_inLine, bne_iff_ne]
    rintro rfl
    exact hv hc
  have htake : v.takeWhile cls.accepts = v := List.takeWhile_eq_self_iff.mpr hall
  have hdrop : v.dropWhile cls.accepts = [] := List.dropWhile_eq_nil_iff.mpr hall
  cases valued with
  | false =>
    refine run_atLeast_of_some cls ?_
    rw [htake, hdrop]
    rfl
  | true =>
    refine run_atLeast_of_some cls ?_
    rw [htake, hdrop]
    simp [run, Anchor.holds, Place.textTo]

theorem run_valueToEnd (valued : Bool) (hv : '\n' ∉ v) :
    (valueToEnd valued).ignoringCase.run ⟨b, v, cap⟩ some =
      some ⟨v.reverse ++ b, [], if valued then some (Text.stripLeft v) else cap⟩ := by
  have hsub : '\n' ∉ Text.stripLeft v := fun hm => hv ((List.dropWhile_suffix _).subset hm)
  refine run_blanks_of_some ((run_value valued hsub).trans ?_)
  rw [← List.append_assoc, ← List.reverse_append, Text.stripLeft, List.takeWhile_append_dropWhile]

theorem run_equals (t : Pattern) :
    (seq (literal ['=']) t).ignoringCase.run ⟨b, a, cap⟩ k =
      match a with
      | c :: v => if c = '=' then t.ignoringCase.run ⟨c :: b, v, cap⟩ k else none
      | [] => none := by
  cases a with
  | nil => rfl
  | cons c v =>
    have hc := CharClass.accepts_equals c
    simp [literal, seqs, ignoringCase, run, CharClass.single, hc, Place.next]

theorem run_afterKey (valued : Bool) :
    (afterKey valued).ignoringCase.run ⟨b, a, cap⟩ some =
      (seq (literal ['=']) (valueToEnd valued)).ignoringCase.run
        ⟨(a.takeWhile isBlank).reverse ++ b, Text.stripLeft a, cap⟩ some := by
  refine run_blanks_of_none fun b c a hc => ?_
  have hne : c ≠ '=' := by
    rintro rfl
    exact absurd hc (by decide)
  exact (run_equals _).trans (if_neg hne)

/-- Nothing goes on behind a part of a key. -/
theorem run_afterKey_of_isKeyChar (valued : Bool) {c : Char} (hc : isKeyChar c = true) :
    (afterKey valued).ignoringCase.run ⟨b, c :: a, cap⟩ some = none := by
  have hleft : Text.stripLeft (c :: a) = c :: a := Text.stripLeft_eq_self fun d hd => by
    cases hd
    exact isBlank_of_isKeyChar hc
  have hne : c ≠ '=' := by
    rintro rfl
    exact absurd hc (by decide)
  rw [run_afterKey, hleft, run_equals]
  exact if_neg hne

theorem isKeyChar_of_accepts_first {c : Char}
    (h : CharClass.accepts { items := [.range 'A' 'Z', .char '_'], ignoreCase := true } c = true) :
    CharClass.accepts
      { items := [.range 'A' 'Z', .range '0' '9', .char '_'], ignoreCase := true } c = true := by
  rw [CharClass.accepts_keyStart] at h
  rw [CharClass.accepts_keyChar]
  exact isKeyChar_of_isKeyStart h

theorem run_grouped_key (keyed : Bool)
    (hk : ∀ b c a cap, isKeyChar c = true → k ⟨b, c :: a, cap⟩ = none) :
    (grouped keyed key).ignoringCase.run ⟨b, a, cap⟩ k =
      if a.head?.any isKeyStart then
        k ⟨(a.takeWhile isKeyChar).reverse ++ b, a.dropWhile isKeyChar,
          if keyed then some (a.takeWhile isKeyChar) else cap⟩
      else none := by
  have hstart := funext CharClass.accepts_keyStart
  have hchar := funext CharClass.accepts_keyChar
  cases keyed with
  | false =>
    have hrun := run_word b a cap (fun c => isKeyChar_of_accepts_first) fun _ b c a hc =>
      hk b c a cap (by rwa [hchar] at hc)
    rw [hstart, hchar] at hrun
    exact hrun
  | true =>
    have hrun := run_group_word b a cap (fun c => isKeyChar_of_accepts_first) fun _ b c a cap hc =>
      hk b c a cap (by rwa [hchar] at hc)
    rw [hstart, hchar] at hrun
    exact hrun

/-- A search for an assignment comes to the end of the key with what it captured. -/
theorem run_assignment (keyed : Bool) (line : Text) :
    (assignment keyed).run (.start line) some =
      if (Text.stripLeft line).head?.any isKeyStart then
        (afterKey !keyed).ignoringCase.run
          ⟨((Text.stripLeft line).takeWhile isKeyChar).reverse ++ (line.takeWhile isBlank).reverse,
            (Text.stripLeft line).dropWhile isKeyChar,
            if keyed then some ((Text.stripLeft line).takeWhile isKeyChar) else none⟩ some
      else none := by
  have hkey : ∀ b a cap, (grouped keyed key).ignoringCase.run ⟨b, a, cap⟩
      (fun e => (afterKey !keyed).ignoringCase.run e some) = _ :=
    fun b a cap => run_grouped_key keyed fun b c a cap hc => run_afterKey_of_isKeyChar (!keyed) hc
  have hblanks : (assignment keyed).run (.start line) some =
      blanks.ignoringCase.run ⟨[], line, none⟩ fun e =>
        (grouped keyed key).ignoringCase.run e fun e => (afterKey !keyed).ignoringCase.run e some := rfl
  rw [hblanks, run_blanks_of_none, List.append_nil, hkey]
  intro b c a hc
  rw [hkey, List.head?_cons, Option.any_some, if_neg]
  intro hstart
  have hblank := isBlank_of_isKeyChar (isKeyChar_of_isKeyStart hstart)
  rw [hc] at hblank
  cases hblank

theorem captured_run_afterKey (valued : Bool) (ha : '\n' ∉ a) :
    ((afterKey valued).ignoringCase.run ⟨b, a, cap⟩ some).bind (·.captured) =
      match Text.stripLeft a with
      | '=' :: v => if valued then some (Text.stripLeft v) else cap
      | _ => none := by
  have hno : '\n' ∉ Text.stripLeft a := fun hm => ha ((List.dropWhile_suffix _).subset hm)
  rw [run_afterKey, run_equals]
  cases ht : Text.stripLeft a with
  | nil => rfl
  | cons c v =>
    rw [ht, List.mem_cons, not_or] at hno
    by_cases hc : c = '='
    · subst hc
      simp only [if_true, run_valueToEnd valued hno.2, Option.bind_some]
    · simp only [if_neg hc, Option.bind_none]
      split
      · rename_i heq
        exact absurd (List.cons.inj heq).1 hc
      · rfl

end

end Pattern

/-- **An assignment is what its pattern finds**: the key and the value are what the two groups of
the pattern capture, the value without the white space behind it. -/
theorem EnvEntry.assignment?_eq_captured {line : Text} (h : '\n' ∉ line) :
    assignment? line = do
      let key ← ((Pattern.assignment true).run (.start line) some).bind (·.captured)
      let value ← ((Pattern.assignment false).run (.start line) some).bind (·.captured)
      return (key, Text.strip value) := by
  have hno : '\n' ∉ (Text.stripLeft line).dropWhile isKeyChar := fun hm =>
    h ((List.dropWhile_suffix _).subset ((List.dropWhile_suffix _).subset hm))
  rw [Pattern.run_assignment, Pattern.run_assignment]
  simp only [assignment?]
  generalize (line.takeWhile isBlank).reverse = b
  generalize Text.stripLeft line = t at hno ⊢
  have hsplit := List.takeWhile_append_dropWhile (p := isKeyChar) (l := t)
  have hdrop : t.drop (t.takeWhile isKeyChar).length = t.dropWhile isKeyChar := by
    calc t.drop (t.takeWhile isKeyChar).length
        = (t.takeWhile isKeyChar ++ t.dropWhile isKeyChar).drop (t.takeWhile isKeyChar).length := by
          rw [hsplit]
      _ = t.dropWhile isKeyChar := List.drop_left
  rw [hdrop]
  by_cases hstart : t.head?.any isKeyStart = true
  · rw [if_pos hstart, if_pos hstart, Pattern.captured_run_afterKey _ hno,
      Pattern.captured_run_afterKey _ hno]
    cases t with
    | nil => cases hstart
    | cons c t =>
      rw [List.head?_cons, Option.any_some] at hstart
      have hkey := isKeyChar_of_isKeyStart hstart
      rw [List.takeWhile_cons_of_pos hkey]
      generalize Text.stripLeft ((c :: t).dropWhile isKeyChar) = rest
      split
      · rename_i hk
        cases hk
        have hvalue (v : Text) : Text.strip (Text.stripLeft v) = Text.strip v := by
          rw [Text.strip, Text.strip, Text.stripLeft, Text.stripLeft, List.dropWhile_idempotent]
        simp [hstart, hvalue]
      · rename_i hno
        split
        · exact absurd rfl (hno _ _ _ rfl)
        · rfl
  · rw [if_neg hstart, if_neg hstart]
    split
    · rename_i c _ _ hk _
      rw [if_neg]
      · rfl
      · intro hc
        obtain ⟨rest, hrest⟩ := hk ▸ List.takeWhile_prefix (l := t) isKeyChar
        exact hstart (by rw [← hrest]; exact hc)
    · rfl

end EnvAudit
