import EnvAudit.Proofs.SecretSpans

/-!
# Hits by column

A search goes on behind each hit, so a match that starts inside a hit is passed over. Where no match
of a pattern starts inside another (`IsSparse`), nothing is: the pattern has a hit at every column
where a run finds a match, and it is the match that the run finds (`mem_hits_iff`).
-/
namespace EnvAudit

theorem Place.IsAt.eq_atColumn {t : Text} {s : Place} {i : Nat} (h : s.IsAt t i)
    (hcap : s.captured = none) : s = .atColumn t i := by
  obtain ⟨-, hbefore, hafter⟩ := h
  cases s
  simp_all [Place.atColumn]

namespace Pattern

/-- Patterns that run alike have the same hits. -/
theorem hits_congr {p q : Pattern} (h : ∀ s k, p.run s k = q.run s k) (line : Text) :
    p.hits line = q.hits line := by
  have hfind : ∀ mustMove before after,
      p.find? mustMove before after = q.find? mustMove before after := by
    intro mustMove before after
    induction after generalizing mustMove before with
    | nil =>
      rw [find?.eq_def, find?.eq_def]
      simp only [h]
      split <;> simp_all
    | cons c after ih =>
      rw [find?.eq_def, find?.eq_def]
      simp only [h]
      split <;> simp_all
  have hfrom : ∀ fuel mustMove s, p.hitsFrom fuel mustMove s = q.hitsFrom fuel mustMove s := by
    intro fuel
    induction fuel with
    | zero =>
      intro mustMove s
      rfl
    | succ fuel ih =>
      intro mustMove s
      simp only [hitsFrom, hfind, ih]
  exact hfrom ..

section

variable {p : Pattern} {line : Text}

/-- A hit is what a run from its start finds, with nothing captured before. -/
theorem run_of_find? {before after : Text} {hit : Hit}
    (h : p.find? false before after = some hit) :
    p.run hit.start some = some hit.stop ∧ hit.start.captured = none := by
  induction after generalizing before with
  | nil =>
    rw [find?.eq_def] at h
    simp only [Bool.false_and, Bool.false_eq_true, if_false] at h
    split at h
    · rename_i e hrun
      cases h
      exact ⟨hrun, rfl⟩
    · cases h
    · contradiction
  | cons c after ih =>
    rw [find?.eq_def] at h
    simp only [Bool.false_and, Bool.false_eq_true, if_false] at h
    split at h
    · rename_i e hrun
      cases h
      exact ⟨hrun, rfl⟩
    · contradiction
    · rename_i heq
      cases heq
      exact ih h

/-- Whether no match of the pattern starts inside another. -/
def IsSparse (p : Pattern) : Prop :=
  ∀ line i j k l, p.Matches line i j → i < k → k < j → ¬ p.Matches line k l

variable (hp : p.isRegular = true) (hw : 0 < (p.width (0, none)).1)

include hp hw

theorem run_of_mem_hitsFrom {fuel i : Nat} (hi : i ≤ line.length) {hit : Hit}
    (h : hit ∈ p.hitsFrom fuel false (.atColumn line i)) :
    hit.start = .atColumn line hit.column ∧ p.run hit.start some = some hit.stop := by
  induction fuel generalizing i with
  | zero => cases h
  | succ fuel ih =>
    rcases find?_cases hp hi with ⟨hnone, -⟩ | ⟨first, hfirst, hin, -, -⟩
    · simp only [hitsFrom, Place.atColumn, hnone] at h
      cases h
    · have hempty := hin.isEmpty_eq_false hw
      simp only [hitsFrom, Place.atColumn, hfirst, hempty, hin.stopAt.before, hin.stopAt.after] at h
      rcases List.mem_cons.mp h with rfl | h
      · obtain ⟨hrun, hcap⟩ := run_of_find? hfirst
        exact ⟨hin.startAt.eq_atColumn hcap, hrun⟩
      · exact ih hin.stopAt.le h

/-- A hit is what a run from its column finds. -/
theorem run_of_mem_hits {hit : Hit} (h : hit ∈ p.hits line) :
    hit.column ≤ line.length ∧ p.run (.atColumn line hit.column) some = some hit.stop := by
  obtain ⟨hstart, hrun⟩ := run_of_mem_hitsFrom hp hw (Nat.zero_le _) h
  exact ⟨((cover_hits hp hw line).isIn hit h).1.startAt.le, hstart ▸ hrun⟩

/-- Where a run finds something, there is a hit. -/
theorem exists_hit_of_isSome_run {i : Nat} (hi : i ≤ line.length)
    (h : (p.run (.atColumn line i) some).isSome = true) :
    ∃ hit ∈ p.hits line, hit.span.start ≤ i ∧ i < hit.span.stop := by
  obtain ⟨stop, hmatch⟩ := (isSome_run_iff hp (Place.isAt_atColumn hi)).mp h
  exact (cover_hits hp hw line).complete i stop (Nat.zero_le _) hmatch

/-- Patterns that always take something have the same hits if they find the same from each place. -/
theorem hits_congr_some {q : Pattern} (h : ∀ s, p.run s some = q.run s some) (line : Text) :
    p.hits line = q.hits line := by
  have hfind : ∀ before after, p.find? false before after = q.find? false before after := by
    intro before after
    induction after generalizing before with
    | nil =>
      rw [find?.eq_def, find?.eq_def]
      simp only [Bool.false_and, Bool.false_eq_true, if_false, h]
      split <;> simp_all
    | cons c after ih =>
      rw [find?.eq_def, find?.eq_def]
      simp only [Bool.false_and, Bool.false_eq_true, if_false, h]
      split <;> simp_all
  have hfrom : ∀ fuel i, i ≤ line.length → p.hitsFrom fuel false (.atColumn line i) =
      q.hitsFrom fuel false (.atColumn line i) := by
    intro fuel
    induction fuel with
    | zero => exact fun _ _ => rfl
    | succ fuel ih =>
      intro i hi
      rcases find?_cases hp hi with ⟨hnone, -⟩ | ⟨first, hfirst, hin, -, -⟩
      · simp only [hitsFrom, Place.atColumn, ← hfind, hnone]
      · -- no hit is empty, so the next search is of the same kind
        have hempty := hin.isEmpty_eq_false hw
        have hrest := ih first.span.stop hin.stopAt.le
        simp only [Place.atColumn] at hrest
        simp only [hitsFrom, Place.atColumn, ← hfind, hfirst, hempty, hin.stopAt.before,
          hin.stopAt.after, hrest]
  exact hfrom _ 0 (Nat.zero_le _)

/-- **A sparse pattern is found wherever it matches.** -/
theorem mem_hits_iff (hs : p.IsSparse) {hit : Hit} :
    hit ∈ p.hits line ↔
      hit.start = .atColumn line hit.column ∧ p.run hit.start some = some hit.stop := by
  constructor
  · exact run_of_mem_hitsFrom hp hw (Nat.zero_le _)
  · rintro ⟨hstart, hrun⟩
    have hle : hit.column ≤ line.length := by
      have hlen := congrArg Place.column hstart
      simp only [Place.column, Place.atColumn, List.length_reverse, List.length_take] at hlen
      change hit.column = min hit.column line.length at hlen
      omega
    have hcover := cover_hits hp hw line
    obtain ⟨j, -, hmatch⟩ := (run_some_iff hp (Place.isAt_atColumn hle)).2 _ (hstart ▸ hrun)
    obtain ⟨found, hfound, hfrom, hto⟩ := hcover.complete _ j (Nat.zero_le _) hmatch
    have hcolumn : found.column = hit.column := by
      rcases Nat.eq_or_lt_of_le hfrom with heq | hlt
      · exact heq
      · exact absurd hmatch (hs _ _ _ _ _ (hcover.isIn found hfound).1.isMatch hlt hto)
    obtain ⟨hplace, hstop⟩ := run_of_mem_hitsFrom hp hw (Nat.zero_le _) hfound
    rw [hcolumn, ← hstart] at hplace
    rw [hplace, hrun] at hstop
    have heq : found = hit := by
      cases found
      cases hit
      cases hplace
      cases hstop
      rfl
    exact heq ▸ hfound

end

end Pattern
end EnvAudit
