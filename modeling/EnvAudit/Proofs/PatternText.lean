import EnvAudit.Proofs.PatternLanguage

/-!
# What a match takes

Most patterns of secrets look at nothing but the text that they take: they are blind for what stands
around it. Wherever the same text stands again, such a pattern matches again (`matches_of_same`).
And no match takes a character that every class of its pattern rejects (`not_taken_of_rejects`).
-/
namespace EnvAudit.Pattern

/-! ## The text of a match alone -/

/-- Whether the pattern looks at nothing but the characters that it takes. -/
def isBlind : Pattern → Bool
  | .empty | .one _ => true
  | .seq p q | .alt p q => isBlind p && isBlind q
  | .many _ _ _ p | .group p => isBlind p
  | .anchor _ | .ahead .. | .behind .. | .again _ | .atomic _ | .ifGroup .. => false

/-- A match ends at or behind its start. -/
theorem le_of_matches {t : Text} {p : Pattern} {i j : Nat} (h : p.Matches t i j) : i ≤ j := by
  have := (width_of_matches h (0, none)).1
  omega

theorem repeats_of_same {t : Text} {p : Pattern} {R : Nat → Nat → Prop} {a b : Nat}
    {same : Nat → Prop}
    (hR : ∀ {i j}, p.Matches t (a + i) (a + j) → (∀ k, i ≤ k → k < j → same k) → R (b + i) (b + j))
    {n i j : Nat} (h : Repeats (fun x y => p.Matches t x y) n (a + i) (a + j))
    (hsame : ∀ k, i ≤ k → k < j → same k) : Repeats R n (b + i) (b + j) := by
  induction n generalizing i with
  | zero =>
    obtain rfl : i = j := Nat.add_left_cancel h
    rfl
  | succ n ih =>
    obtain ⟨m, hm, hj⟩ := h
    have him := le_of_matches hm
    have hmj : m ≤ a + j := by
      have := hj.le (a := 0) fun x y hxy => by simpa using le_of_matches hxy
      omega
    obtain ⟨d, rfl⟩ := Nat.exists_eq_add_of_le (Nat.le_trans (Nat.le_add_right a i) him)
    refine ⟨b + d, hR hm fun k hik hk => hsame k hik (by omega), ih hj fun k hdk hk => ?_⟩
    exact hsame k (by omega) hk

/-- **Where the text of a match stands again, a blind pattern matches again.** -/
theorem matches_of_same {t t' : Text} {p : Pattern} (hp : p.isBlind = true) {a b i j : Nat}
    (h : p.Matches t (a + i) (a + j)) (hsame : ∀ k, i ≤ k → k < j → t[a + k]? = t'[b + k]?) :
    p.Matches t' (b + i) (b + j) := by
  induction p generalizing i j with
  | empty =>
    obtain rfl : i = j := Nat.add_left_cancel h
    rfl
  | one cls =>
    obtain ⟨c, hc, ha, hj⟩ := h
    obtain rfl : j = i + 1 := by omega
    exact ⟨c, by rw [← hsame i (Nat.le_refl i) (Nat.lt_succ_self i), hc], ha, rfl⟩
  | seq p q ihp ihq =>
    simp only [isBlind, Bool.and_eq_true] at hp
    obtain ⟨m, hm, hj⟩ := h
    have him := le_of_matches hm
    have hmj := le_of_matches hj
    obtain ⟨d, rfl⟩ := Nat.exists_eq_add_of_le (Nat.le_trans (Nat.le_add_right a i) him)
    refine ⟨b + d, ihp hp.1 hm fun k hik hk => ?_, ihq hp.2 hj fun k hdk hk => ?_⟩
    · exact hsame k hik (by omega)
    · exact hsame k (by omega) hk
  | alt p q ihp ihq =>
    simp only [isBlind, Bool.and_eq_true] at hp
    exact h.imp (fun h => ihp hp.1 h hsame) fun h => ihq hp.2 h hsame
  | many lo hi greedy p ih =>
    obtain ⟨n, hlo, hhi, hr⟩ := h
    exact ⟨n, hlo, hhi, repeats_of_same (fun hm hs => ih hp hm hs) hr hsame⟩
  | group p ih => exact ih hp h hsame
  | anchor _ | ahead _ _ _ | behind _ _ _ _ | again _ | atomic _ _ | ifGroup _ _ _ _ =>
    simp [isBlind] at hp

/-- A blind pattern matches in the front of a text as it does in the front alone. -/
theorem matches_append_iff {p : Pattern} (hp : p.isBlind = true) {front back : Text} {i j : Nat}
    (hj : j ≤ front.length) :
    p.Matches (front ++ back) i j ↔ p.Matches front i j := by
  have hsame : ∀ k, k < j → (front ++ back)[k]? = front[k]? := fun k hk =>
    List.getElem?_append_left (Nat.lt_of_lt_of_le hk hj)
  rw [← Nat.zero_add i, ← Nat.zero_add j]
  refine ⟨fun h => matches_of_same hp h fun k _ hk => ?_, fun h => matches_of_same hp h fun k _ hk => ?_⟩
  · rw [Nat.zero_add, hsame k hk]
  · rw [Nat.zero_add, hsame k hk]

/-- A blind pattern matches in the back of a text as it does in the back alone. -/
theorem matches_append_right_iff {p : Pattern} (hp : p.isBlind = true) (front back : Text)
    (i j : Nat) :
    p.Matches (front ++ back) (front.length + i) (front.length + j) ↔ p.Matches back i j := by
  have hsame : ∀ k, (front ++ back)[front.length + k]? = back[0 + k]? := fun k => by
    rw [List.getElem?_append_right (Nat.le_add_right ..), Nat.add_sub_cancel_left, Nat.zero_add]
  rw [← Nat.zero_add i, ← Nat.zero_add j, ← Nat.add_assoc, ← Nat.add_assoc, Nat.add_zero]
  refine ⟨fun h => matches_of_same hp h fun k _ _ => hsame k, fun h => ?_⟩
  exact matches_of_same hp h fun k _ _ => (hsame k).symm

/-! ## Characters that no match takes -/

/-- Whether no class of the pattern has the character. -/
def rejects (c : Char) : Pattern → Bool
  | .one cls => !cls.accepts c
  | .seq p q | .alt p q => rejects c p && rejects c q
  | .many _ _ _ p | .group p => rejects c p
  | .empty | .anchor _ | .ahead .. | .behind .. => true
  | .again _ | .atomic _ | .ifGroup .. => false

/-- **No match takes a character that its pattern rejects.** -/
theorem not_taken_of_rejects {t : Text} {p : Pattern} {c : Char} (hp : p.rejects c = true)
    {i j k : Nat} (h : p.Matches t i j) (hik : i ≤ k) (hkj : k < j) : t[k]? ≠ some c := by
  induction p generalizing i j with
  | empty => exact absurd (show i = j from h) (by omega)
  | anchor _ | ahead _ _ _ | behind _ _ _ _ => exact absurd h.1 (by omega)
  | one cls =>
    obtain ⟨d, hd, ha, rfl⟩ := h
    obtain rfl : k = i := by omega
    rw [hd]
    rintro ⟨⟩
    simp [rejects, ha] at hp
  | seq p q ihp ihq =>
    simp only [rejects, Bool.and_eq_true] at hp
    obtain ⟨m, hm, hj⟩ := h
    by_cases hkm : k < m
    · exact ihp hp.1 hm hik hkm
    · exact ihq hp.2 hj (by omega) hkj
  | alt p q ihp ihq =>
    simp only [rejects, Bool.and_eq_true] at hp
    exact h.elim (fun h => ihp hp.1 h hik hkj) fun h => ihq hp.2 h hik hkj
  | many lo hi greedy p ih =>
    obtain ⟨n, -, -, hr⟩ := h
    induction n generalizing i with
    | zero => exact absurd (show i = j from hr) (by omega)
    | succ n ihn =>
      obtain ⟨m, hm, hr⟩ := hr
      by_cases hkm : k < m
      · exact ih hp hm hik hkm
      · exact ihn (by omega) hr
  | group p ih => exact ih hp h hik hkj
  | again _ | atomic _ _ | ifGroup _ _ _ _ => exact h.elim

/-- Where the first of two patterns rejects a character, a match that takes it does so with the
second. -/
theorem exists_second_of_rejects {t : Text} {p q : Pattern} {c : Char} (hp : p.rejects c = true)
    {i j k : Nat} (h : (Pattern.seq p q).Matches t i j) (hik : i ≤ k) (hk : t[k]? = some c) :
    ∃ m, i ≤ m ∧ m ≤ k ∧ q.Matches t m j := by
  obtain ⟨m, hm, hj⟩ := h
  refine ⟨m, le_of_matches hm, Nat.le_of_not_lt fun hkm => ?_, hj⟩
  exact not_taken_of_rejects hp hm hik hkm hk

end EnvAudit.Pattern
