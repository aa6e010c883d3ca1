import EnvAudit.Text

/-!
# Blank characters

The white space that `strip` removes from the ends of a text: the characters that Unicode calls
separators of words, lines and paragraphs, and the four information separators.
-/
namespace EnvAudit

/-- White space: horizontal and vertical controls, the information separators, the spaces of
Unicode, and the line and paragraph separators. A zero-width space is not blank. -/
def isBlank (c : Char) : Bool :=
  let n := c.toNat
  (9 ≤ n && n ≤ 13) || (28 ≤ n && n ≤ 32) || n == 0x85 || n == 0xA0 || n == 0x1680 ||
    (0x2000 ≤ n && n ≤ 0x200A) || n == 0x2028 || n == 0x2029 || n == 0x202F || n == 0x205F ||
    n == 0x3000

/-- The code points of white space. -/
def blankCodes : List Nat :=
  [9, 10, 11, 12, 13, 28, 29, 30, 31, 32, 0x85, 0xA0, 0x1680, 0x2000, 0x2001, 0x2002, 0x2003,
    0x2004, 0x2005, 0x2006, 0x2007, 0x2008, 0x2009, 0x200A, 0x2028, 0x2029, 0x202F, 0x205F, 0x3000]

theorem toNat_mem_blankCodes {c : Char} (h : isBlank c = true) : c.toNat ∈ blankCodes := by
  simp only [isBlank, Bool.or_eq_true, Bool.and_eq_true, decide_eq_true_eq, beq_iff_eq] at h
  simp only [blankCodes, List.mem_cons, List.not_mem_nil, or_false]
  omega

namespace Text

/-- The text without the blank characters at its start. -/
def stripLeft (t : Text) : Text := t.dropWhile isBlank

/-- The text without the blank characters at its end. -/
def stripRight (t : Text) : Text := (t.reverse.dropWhile isBlank).reverse

/-- The text without the blank characters at its two ends. -/
def strip (t : Text) : Text := stripRight (stripLeft t)

theorem stripLeft_eq_self {t : Text} (h : ∀ c ∈ t.head?, isBlank c = false) : stripLeft t = t := by
  cases t with
  | nil => rfl
  | cons c t => rw [stripLeft, List.dropWhile_cons_of_neg (by simp [h c rfl])]

theorem stripRight_eq_self {t : Text} (h : ∀ c ∈ t.getLast?, isBlank c = false) :
    stripRight t = t := by
  have hrev : stripLeft t.reverse = t.reverse :=
    stripLeft_eq_self fun c hc => h c (by rwa [List.head?_reverse] at hc)
  rw [stripRight, ← stripLeft, hrev, List.reverse_reverse]

/-- Nothing is stripped from a text without blank ends. -/
theorem strip_eq_self {t : Text} (hhead : ∀ c ∈ t.head?, isBlank c = false)
    (hlast : ∀ c ∈ t.getLast?, isBlank c = false) : strip t = t := by
  rw [strip, stripLeft_eq_self hhead, stripRight_eq_self hlast]

/-! ## Blank characters at the ends -/

theorem stripLeft_append {front : Text} (h : ∀ c ∈ front, isBlank c = true) (t : Text) :
    stripLeft (front ++ t) = stripLeft t := List.dropWhile_append_of_pos h

theorem stripLeft_of_blank {t : Text} (h : ∀ c ∈ t, isBlank c = true) : stripLeft t = [] := by
  rw [← List.append_nil t]
  exact stripLeft_append h []

theorem stripRight_append {back : Text} (h : ∀ c ∈ back, isBlank c = true) (t : Text) :
    stripRight (t ++ back) = stripRight t := by
  have hrev : ∀ c ∈ back.reverse, isBlank c = true := fun c hc => h c (List.mem_reverse.mp hc)
  rw [stripRight, List.reverse_append, ← stripLeft, stripLeft_append hrev]
  rfl

/-- Blank characters at the ends do not count for what is stripped. -/
theorem strip_append {front back : Text} (hfront : ∀ c ∈ front, isBlank c = true)
    (hback : ∀ c ∈ back, isBlank c = true) (t : Text) : strip (front ++ t ++ back) = strip t := by
  have hnil : back.dropWhile isBlank = [] := stripLeft_of_blank hback
  rw [strip, strip, List.append_assoc, stripLeft_append hfront, stripLeft, stripLeft,
    List.dropWhile_append]
  by_cases h : (t.dropWhile isBlank).isEmpty = true
  · rw [if_pos h, List.isEmpty_iff.mp h, hnil]
  · rw [if_neg h, stripRight_append hback]

/-- In front of white space a text is stripped as it is alone; nothing is left behind a blank
one. -/
theorem exists_stripLeft_append {back : Text} (h : ∀ c ∈ back, isBlank c = true) (t : Text) :
    ∃ back', (∀ c ∈ back', isBlank c = true) ∧ stripLeft (t ++ back) = stripLeft t ++ back' ∧
      (stripLeft t = [] → back' = []) := by
  rw [stripLeft, stripLeft, List.dropWhile_append]
  by_cases ht : t.dropWhile isBlank = []
  · have hback : back.dropWhile isBlank = [] := stripLeft_of_blank h
    exact ⟨[], by simp, by simp [ht, hback], fun _ => rfl⟩
  · exact ⟨back, h, by simp [ht], fun hnil => absurd hnil ht⟩

theorem exists_stripLeft (t : Text) :
    ∃ front, (∀ c ∈ front, isBlank c = true) ∧ t = front ++ stripLeft t :=
  ⟨t.takeWhile isBlank, List.all_eq_true.mp List.all_takeWhile,
    List.takeWhile_append_dropWhile.symm⟩

/-- A text between two runs of white space is its own without the white space at its ends. -/
theorem exists_strip (t : Text) : ∃ front back, (∀ c ∈ front, isBlank c = true) ∧
    (∀ c ∈ back, isBlank c = true) ∧ t = front ++ strip t ++ back := by
  refine ⟨t.takeWhile isBlank, ((stripLeft t).reverse.takeWhile isBlank).reverse, ?_, ?_, ?_⟩
  · exact fun c hc => List.all_eq_true.mp List.all_takeWhile c hc
  · exact fun c hc => List.all_eq_true.mp List.all_takeWhile c (List.mem_reverse.mp hc)
  · rw [strip, stripRight, List.append_assoc, ← List.reverse_append, List.takeWhile_append_dropWhile,
      List.reverse_reverse, stripLeft, List.takeWhile_append_dropWhile]

/-- Nothing is left of a text exactly if all of it is blank. -/
theorem strip_eq_nil_iff {t : Text} : strip t = [] ↔ ∀ c ∈ t, isBlank c = true := by
  constructor
  · intro h
    obtain ⟨front, back, hfront, hback, ht⟩ := exists_strip t
    rw [ht, h, List.append_nil]
    exact fun c hc => (List.mem_append.mp hc).elim (hfront c) (hback c)
  · intro h
    have hstrip := strip_append h (fun c hc => absurd hc List.not_mem_nil) []
    rwa [List.append_nil, List.append_nil] at hstrip

end Text
end EnvAudit
