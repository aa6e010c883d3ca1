import EnvAudit.Text.CaseTable

/-!
# Lower case

The lower-case form of a text by the full mapping of Unicode: one letter becomes one letter, but for
the dotted capital I, which becomes two, and the capital sigma, whose form depends on its place in
the word. `lower_of_ascii` says that on ASCII the mapping is the familiar one.
-/
namespace EnvAudit

/-- The single lower-case letter of a character, or the character itself. -/
def lowerOne (c : Char) : Char :=
  if c.toNat < 128 then c.toLower
  else if c = '\u0130' then 'i'
  else if c = '\u03A3' then '\u03C3'
  else match caseRuns.find? (·.covers c.toNat) with
    | some r => Char.ofNat (Int.toNat (c.toNat + r.shift))
    | none => c

namespace Text

/-- A capital sigma after `before` (nearest character first) and before `after` ends its word when
a letter with case stands before it and none behind it, whatever is case-ignorable between. -/
def sigmaIsFinal (before after : Text) : Bool :=
  (((before.dropWhile isCaseIgnorable).head?.map isCased).getD false) &&
    !(((after.dropWhile isCaseIgnorable).head?.map isCased).getD false)

/-- Lower-cases `t`, which follows `before` (nearest character first). -/
def lowerAfter (before : Text) : Text → Text
  | [] => []
  | c :: rest =>
    let low :=
      if c = '\u0130' then ['i', '\u0307']
      else if c = '\u03A3' then (if sigmaIsFinal before rest then ['\u03C2'] else ['\u03C3'])
      else [lowerOne c]
    low ++ lowerAfter (c :: before) rest

/-- The lower-case form of a text. -/
def lower (t : Text) : Text := lowerAfter [] t

theorem lowerAfter_of_ascii (before : Text) {t : Text} (h : ∀ c ∈ t, c.toNat < 128) :
    lowerAfter before t = t.map Char.toLower := by
  induction t generalizing before with
  | nil => rfl
  | cons c t ih =>
    have hc : c.toNat < 128 := h c (by simp)
    have h1 : c ≠ '\u0130' := fun e => by simp [e] at hc
    have h2 : c ≠ '\u03A3' := fun e => by simp [e] at hc
    simp only [lowerAfter, h1, h2, if_false, lowerOne, hc, if_true, List.map_cons,
      List.singleton_append]
    rw [ih _ fun d hd => h d (by simp [hd])]

/-- An ASCII text is lower-cased letter by letter. -/
theorem lower_of_ascii {t : Text} (h : ∀ c ∈ t, c.toNat < 128) : lower t = t.map Char.toLower :=
  lowerAfter_of_ascii [] h

end Text
end EnvAudit
