/-!
# Text

A text is the list of its code points, so that lengths, columns and cuts all count code points.
This file holds the few operations on texts that the rest of the library shares: cutting at a
separator, joining, and looking for one text inside another. `join_splitOn` and `splitOn_join` say
that cutting at a character and joining undo each other.
-/
namespace EnvAudit

/-- A text is the list of its code points. -/
abbrev Text := List Char

namespace Text

/-- The pieces of a text between the occurrences of `sep`; there is always at least one. -/
def splitOn (sep : Char) (t : Text) : List Text :=
  let (piece, pieces) := t.foldr
    (fun c (piece, pieces) => if c = sep then ([], piece :: pieces) else (c :: piece, pieces))
    ([], [])
  piece :: pieces

/-- The pieces in order with `sep` between neighbours. -/
def join (sep : Text) (pieces : List Text) : Text := sep.intercalate pieces

/-- The lines of a text; only a line feed ends a line. -/
def lines (t : Text) : List Text := splitOn '\n' t

/-- Whether `needle` occurs in `t` as a run of neighbouring characters. -/
def includes (needle t : Text) : Bool :=
  match t with
  | [] => needle.isEmpty
  | c :: rest => needle.isPrefixOf (c :: rest) || includes needle rest

/-- Every occurrence of the character `old` becomes the text `new`. -/
def replaceChar (old : Char) (new : Text) (t : Text) : Text :=
  t.flatMap fun c => if c = old then new else [c]

/-- Order by the first differing code point; a text comes before its extensions. -/
def le : Text → Text → Bool
  | [], _ => true
  | _ :: _, [] => false
  | a :: s, b :: t => if a = b then le s t else a.toNat < b.toNat

/-- Whether the first differing code point of a text is less, or the text ends before. -/
def Less : Text → Text → Prop
  | _, [] => False
  | [], _ :: _ => True
  | a :: s, b :: t => a.toNat < b.toNat ∨ a = b ∧ Less s t

theorem Less.asymm {s t : Text} (h : Less s t) (h' : Less t s) : False := by
  induction s generalizing t with
  | nil => cases t <;> simp [Less] at h h'
  | cons a s ih =>
    cases t with
    | nil => simp [Less] at h
    | cons b t =>
      rcases h with h | ⟨rfl, h⟩
      · rcases h' with h' | ⟨rfl, -⟩ <;> omega
      · rcases h' with h' | ⟨-, h'⟩
        · omega
        · exact ih h h'

theorem Less.trans {s t u : Text} (h : Less s t) (h' : Less t u) : Less s u := by
  induction t generalizing s u with
  | nil => cases s <;> simp [Less] at h
  | cons b t ih =>
    cases u with
    | nil => simp [Less] at h'
    | cons c u =>
      cases s with
      | nil => trivial
      | cons a s =>
        rcases h with h | ⟨rfl, h⟩
        · rcases h' with h' | ⟨rfl, -⟩
          · exact .inl (by omega)
          · exact .inl h
        · rcases h' with h' | ⟨rfl, h'⟩
          · exact .inl h'
          · exact .inr ⟨rfl, ih h h'⟩

theorem Less.irrefl (t : Text) : ¬ Less t t := fun h => h.asymm h

theorem le_iff (s t : Text) : le s t = true ↔ s = t ∨ Less s t := by
  induction s generalizing t with
  | nil => cases t <;> simp [le, Less]
  | cons a s ih =>
    cases t with
    | nil => simp [le, Less]
    | cons b t =>
      by_cases h : a = b
      · subst h
        simp [le, Less, ih]
      · simp [le, Less, h]

theorem le_trans {s t u : Text} (h : le s t = true) (h' : le t u = true) : le s u = true := by
  rcases (le_iff s t).mp h with rfl | h
  · exact h'
  · rcases (le_iff t u).mp h' with rfl | h'
    · exact (le_iff s t).mpr (.inr h)
    · exact (le_iff s u).mpr (.inr (h.trans h'))

theorem le_total (s t : Text) : le s t = true ∨ le t s = true := by
  induction s generalizing t with
  | nil => exact .inl rfl
  | cons a s ih =>
    cases t with
    | nil => exact .inr rfl
    | cons b t =>
      by_cases h : a = b
      · subst h
        simpa [le] using ih t
      · have hne : a.toNat ≠ b.toNat := fun e => h (Char.toNat_inj.mp e)
        simp only [le, h, Ne.symm h, if_false, decide_eq_true_eq]
        omega

/-! ## Cutting and joining -/

theorem splitOn_ne_nil (sep : Char) (t : Text) : splitOn sep t ≠ [] := by
  simp [splitOn]

@[simp] theorem splitOn_nil (sep : Char) : splitOn sep [] = [[]] := rfl

theorem splitOn_cons_self (sep : Char) (t : Text) :
    splitOn sep (sep :: t) = [] :: splitOn sep t := by
  simp [splitOn]

theorem splitOn_cons_of_ne {sep c : Char} (h : c ≠ sep) (t : Text) :
    ∃ p ps, splitOn sep t = p :: ps ∧ splitOn sep (c :: t) = (c :: p) :: ps :=
  ⟨_, _, rfl, by simp [splitOn, h]⟩

theorem join_cons_of_ne_nil (sep p : Text) {ps : List Text} (h : ps ≠ []) :
    join sep (p :: ps) = p ++ sep ++ join sep ps := by
  cases ps with
  | nil => exact absurd rfl h
  | cons q qs => simp [join, List.intercalate, List.intersperse]

/-- Joining the pieces with the separator between them gives the text back. -/
theorem join_splitOn (sep : Char) (t : Text) : join [sep] (splitOn sep t) = t := by
  induction t with
  | nil => rfl
  | cons c t ih =>
    by_cases h : c = sep
    · subst h
      rw [splitOn_cons_self, join_cons_of_ne_nil _ _ (splitOn_ne_nil _ _), ih]
      simp
    · obtain ⟨p, ps, hs, hc⟩ := splitOn_cons_of_ne h t
      rw [hc]
      rw [hs] at ih
      cases ps with
      | nil => simpa [join, List.intercalate, List.intersperse] using ih
      | cons q qs =>
        rw [join_cons_of_ne_nil _ _ (by simp)] at ih ⊢
        simpa using ih

/-- A character of a joined text is a separator or in one of the pieces. -/
theorem mem_join {sep c : Char} {pieces : List Text} (h : c ∈ join [sep] pieces) :
    c = sep ∨ ∃ p ∈ pieces, c ∈ p := by
  induction pieces with
  | nil => cases h
  | cons p ps ih =>
    by_cases hps : ps = []
    · subst hps
      exact .inr ⟨p, List.mem_cons_self, by simpa [join, List.intercalate] using h⟩
    · rw [join_cons_of_ne_nil _ _ hps, List.mem_append, List.mem_append] at h
      rcases h with (h | h) | h
      · exact .inr ⟨p, List.mem_cons_self, h⟩
      · exact .inl (List.mem_singleton.mp h)
      · exact (ih h).imp_right fun ⟨q, hq, hc⟩ => ⟨q, List.mem_cons_of_mem _ hq, hc⟩

/-- What is in a piece is in the joined text. -/
theorem mem_join_of_mem {sep : Text} {c : Char} {pieces : List Text} {p : Text} (hp : p ∈ pieces)
    (hc : c ∈ p) : c ∈ join sep pieces := by
  induction pieces with
  | nil => cases hp
  | cons q qs ih =>
    rcases List.mem_cons.mp hp with rfl | hp
    · by_cases hqs : qs = []
      · subst hqs
        simpa [join, List.intercalate] using hc
      · rw [join_cons_of_ne_nil _ _ hqs]
        exact List.mem_append_left _ (List.mem_append_left _ hc)
    · rw [join_cons_of_ne_nil _ _ (List.ne_nil_of_mem hp)]
      exact List.mem_append_right _ (ih hp)

theorem splitOn_of_not_mem {sep : Char} {t : Text} (h : sep ∉ t) : splitOn sep t = [t] := by
  induction t with
  | nil => rfl
  | cons c t ih =>
    simp only [List.mem_cons, not_or] at h
    obtain ⟨p, ps, hs, hc⟩ := splitOn_cons_of_ne (Ne.symm h.1) t
    rw [ih h.2] at hs
    cases hs
    exact hc

/-- Two texts with the separator between them are cut there and where each is cut alone. -/
theorem splitOn_append (sep : Char) (s t : Text) :
    splitOn sep (s ++ sep :: t) = splitOn sep s ++ splitOn sep t := by
  induction s with
  | nil => exact splitOn_cons_self sep t
  | cons c s ih =>
    by_cases h : c = sep
    · subst h
      rw [List.cons_append, splitOn_cons_self, ih, splitOn_cons_self, List.cons_append]
    · obtain ⟨p, ps, hs, hc⟩ := splitOn_cons_of_ne h s
      obtain ⟨q, qs, hs', hc'⟩ := splitOn_cons_of_ne h (s ++ sep :: t)
      rw [ih, hs, List.cons_append, List.cons.injEq] at hs'
      rw [List.cons_append, hc', hc, List.cons_append, hs'.1, hs'.2]

theorem splitOn_append_sep {sep : Char} {p : Text} (h : sep ∉ p) (t : Text) :
    splitOn sep (p ++ sep :: t) = p :: splitOn sep t := by
  rw [splitOn_append, splitOn_of_not_mem h, List.singleton_append]

/-- Cutting at the separator gives the pieces back that were joined with it, if none holds it. -/
theorem splitOn_join {sep : Char} {pieces : List Text} (hne : pieces ≠ [])
    (h : ∀ p ∈ pieces, sep ∉ p) : splitOn sep (join [sep] pieces) = pieces := by
  induction pieces with
  | nil => exact absurd rfl hne
  | cons p ps ih =>
    have hp : sep ∉ p := h p List.mem_cons_self
    by_cases hps : ps = []
    · subst hps
      simpa [join, List.intercalate] using splitOn_of_not_mem hp
    · rw [join_cons_of_ne_nil _ _ hps, List.append_assoc, List.singleton_append,
        splitOn_append_sep hp, ih hps fun q hq => h q (List.mem_cons_of_mem _ hq)]

/-- No piece holds the separator. -/
theorem not_mem_of_mem_splitOn {sep : Char} {t p : Text} (h : p ∈ splitOn sep t) : sep ∉ p := by
  induction t generalizing p with
  | nil => simp_all
  | cons c t ih =>
    by_cases hc : c = sep
    · subst hc
      rw [splitOn_cons_self] at h
      rcases List.mem_cons.mp h with rfl | h
      · simp
      · exact ih h
    · obtain ⟨q, qs, hs, hcons⟩ := splitOn_cons_of_ne hc t
      rw [hcons] at h
      rcases List.mem_cons.mp h with rfl | h
      · have hq : sep ∉ q := ih (by simp [hs])
        simp [Ne.symm hc, hq]
      · exact ih (by simp [hs, h])

/-- A character of a piece is one of the text. -/
theorem mem_of_mem_splitOn {sep c : Char} {t p : Text} (h : p ∈ splitOn sep t) (hc : c ∈ p) :
    c ∈ t := by
  induction t generalizing p with
  | nil =>
    obtain rfl := List.mem_singleton.mp h
    exact hc
  | cons d t ih =>
    by_cases hd : d = sep
    · subst hd
      rw [splitOn_cons_self] at h
      rcases List.mem_cons.mp h with rfl | h
      · cases hc
      · exact List.mem_cons_of_mem _ (ih h hc)
    · obtain ⟨q, qs, hs, hcons⟩ := splitOn_cons_of_ne hd t
      rw [hcons] at h
      rw [hs] at ih
      rcases List.mem_cons.mp h with rfl | h
      · rcases List.mem_cons.mp hc with rfl | hc
        · exact List.mem_cons_self
        · exact List.mem_cons_of_mem _ (ih List.mem_cons_self hc)
      · exact List.mem_cons_of_mem _ (ih (List.mem_cons_of_mem _ h) hc)

end Text
end EnvAudit
