import EnvAudit.Proofs.UsageGroups
import Mathlib.Data.List.Nodup

/-!
# Readings in order

What the rules read in a line is put in order, by column and then by name, and what several of them
read at one place stays once. So the readings of a line are known from what each rule reads alone
(`readings_congr`), whatever the order of the rules, and however often each stands among them. Every
reading becomes one location of a usage, which `count_find` counts.
-/
namespace EnvAudit.EnvKeyUsage

/-! ## The order of readings -/

section

variable {a b c : Nat × Text}

theorem comesBefore_iff :
    comesBefore a b = true ↔ a.1 < b.1 ∨ a.1 = b.1 ∧ Text.Less a.2 b.2 := by
  have hle : (a.2 != b.2 && Text.le a.2 b.2) = true ↔ Text.Less a.2 b.2 := by
    rw [Bool.and_eq_true, bne_iff_ne, Text.le_iff]
    constructor
    · rintro ⟨hne, heq | hless⟩
      · exact absurd heq hne
      · exact hless
    · intro hless
      refine ⟨fun heq => ?_, .inr hless⟩
      rw [heq] at hless
      exact hless.irrefl
  rw [comesBefore, Bool.or_eq_true, decide_eq_true_eq, Bool.and_assoc, Bool.and_eq_true, beq_iff_eq,
    hle]

theorem comesBefore_asymm (hab : comesBefore a b = true) (hba : comesBefore b a = true) : False := by
  rw [comesBefore_iff] at hab hba
  rcases hab with hab | ⟨hab, hless⟩
  · omega
  · rcases hba with hba | ⟨-, hless'⟩
    · omega
    · exact hless.asymm hless'

theorem comesBefore_trans (hab : comesBefore a b = true) (hbc : comesBefore b c = true) :
    comesBefore a c = true := by
  rw [comesBefore_iff] at hab hbc ⊢
  rcases hab with hab | ⟨hab, hless⟩
  · left
    omega
  · rcases hbc with hbc | ⟨hbc, hless'⟩
    · left
      omega
    · exact .inr ⟨hab.trans hbc, hless.trans hless'⟩

theorem comesBefore_total (hne : a ≠ b) : comesBefore a b = true ∨ comesBefore b a = true := by
  rw [comesBefore_iff, comesBefore_iff]
  by_cases hcolumn : a.1 = b.1
  · have hname : a.2 ≠ b.2 := fun hname => hne (Prod.ext hcolumn hname)
    rcases Text.le_total a.2 b.2 with h | h
    · exact .inl (.inr ⟨hcolumn, ((Text.le_iff _ _).mp h).resolve_left hname⟩)
    · exact .inr (.inr ⟨hcolumn.symm, ((Text.le_iff _ _).mp h).resolve_left hname.symm⟩)
  · omega

end

/-- Whether readings stand in order, so that none stands twice. -/
def IsOrdered (rs : List (Nat × Text)) : Prop := rs.Pairwise fun a b => comesBefore a b = true

theorem IsOrdered.nodup {rs : List (Nat × Text)} (h : IsOrdered rs) : rs.Nodup := by
  refine List.Pairwise.imp ?_ h
  rintro a b hab rfl
  exact comesBefore_asymm hab hab

/-- Readings in order are known from which there are. -/
theorem IsOrdered.ext {rs rs' : List (Nat × Text)} (h : IsOrdered rs) (h' : IsOrdered rs')
    (hmem : ∀ r, r ∈ rs ↔ r ∈ rs') : rs = rs' := by
  have hperm : rs.Perm rs' := (List.perm_ext_iff_of_nodup h.nodup h'.nodup).mpr hmem
  refine List.Perm.eq_of_pairwise ?_ h h' hperm
  intro a b _ _ hab hba
  exact absurd (comesBefore_asymm hab hba) id

/-! ## Readings of a line -/

theorem mem_place {a r : Nat × Text} {rs : List (Nat × Text)} :
    r ∈ place a rs ↔ r = a ∨ r ∈ rs := by
  induction rs with
  | nil => simp [place]
  | cons b rs ih =>
    unfold place
    split
    · rename_i hab
      simp [hab]
    · split
      · simp
      · simp only [List.mem_cons, ih]
        exact or_left_comm

theorem isOrdered_place (a : Nat × Text) {rs : List (Nat × Text)} (h : IsOrdered rs) :
    IsOrdered (place a rs) := by
  induction rs with
  | nil => exact List.pairwise_singleton _ a
  | cons b rs ih =>
    obtain ⟨hb, hrs⟩ := List.pairwise_cons.mp h
    unfold place
    split
    · exact h
    · rename_i hne
      split
      · rename_i hab
        refine List.pairwise_cons.mpr ⟨fun r hr => ?_, h⟩
        rcases List.mem_cons.mp hr with rfl | hr
        · exact hab
        · exact comesBefore_trans hab (hb r hr)
      · rename_i hab
        refine List.pairwise_cons.mpr ⟨fun r hr => ?_, ih hrs⟩
        rcases mem_place.mp hr with rfl | hr
        · exact (comesBefore_total hne).resolve_left hab
        · exact hb r hr

theorem mem_readings {rules : List AccessRule} {line : Text} {r : Nat × Text} :
    r ∈ readings rules line ↔ ∃ rule ∈ rules, r ∈ rule.names line := by
  have hfold : ∀ rs : List (Nat × Text), r ∈ rs.foldr place [] ↔ r ∈ rs := by
    intro rs
    induction rs with
    | nil => simp
    | cons a rs ih => rw [List.foldr_cons, mem_place, ih, List.mem_cons]
  rw [readings, hfold, List.mem_flatMap]

theorem isOrdered_readings (rules : List AccessRule) (line : Text) :
    IsOrdered (readings rules line) := by
  unfold readings
  induction rules.flatMap (·.names line) with
  | nil => exact List.Pairwise.nil
  | cons a rs ih => exact isOrdered_place a ih

/-- **Only what is read counts**, not by how many rules or in which order. -/
theorem readings_congr {rules rules' : List AccessRule} {line : Text}
    (h : ∀ r, (∃ rule ∈ rules, r ∈ rule.names line) ↔ ∃ rule ∈ rules', r ∈ rule.names line) :
    readings rules line = readings rules' line := by
  refine (isOrdered_readings rules line).ext (isOrdered_readings rules' line) fun r => ?_
  rw [mem_readings, mem_readings, h]

/-- Rules that read the same in every line find the same in every text. -/
theorem find_congr {rules rules' : List AccessRule}
    (h : ∀ line, readings rules line = readings rules' line) (content file : Text) :
    find rules content file = find rules' content file := by
  have hlines : ∀ (n : Nat) (lines : List Text),
      inLines rules file n lines = inLines rules' file n lines := by
    intro n lines
    induction lines generalizing n with
    | nil => rfl
    | cons line lines ih => rw [inLines, inLines, inLine, inLine, h, ih]
  rw [find, find, hlines]

/-! ## The number of locations -/

/-- How many locations usages have together. -/
def countLocations : List EnvKeyUsage → Nat
  | [] => 0
  | u :: us => u.locations.length + countLocations us

theorem countLocations_eq_length (us : List EnvKeyUsage) :
    countLocations us = (namedLocations us).length := by
  induction us with
  | nil => rfl
  | cons u us ih => simp [countLocations, namedLocations, ih]

theorem countLocations_append (us vs : List EnvKeyUsage) :
    countLocations (us ++ vs) = countLocations us + countLocations vs := by
  simp [countLocations_eq_length, namedLocations]

theorem countLocations_inLine (rules : List AccessRule) (file : Text) (n : Nat) (line : Text) :
    countLocations (inLine rules file n line) = (readings rules line).length := by
  unfold inLine
  induction readings rules line with
  | nil => rfl
  | cons r rs ih =>
    rw [List.map_cons, countLocations, ih, List.length_cons, Nat.add_comm]
    rfl

/-- The places of the readings in lines, each by the number of its line, from `i` on, and its
column. -/
def readPlaces (rules : List AccessRule) : Nat → List Text → List (Nat × Nat)
  | _, [] => []
  | i, line :: rest => (readings rules line).map (fun r => (i, r.1)) ++ readPlaces rules (i + 1) rest

theorem mem_readPlaces {rules : List AccessRule} {lines : List Text} {n i column : Nat} :
    (i, column) ∈ readPlaces rules n lines ↔
      ∃ k line, i = n + k ∧ lines[k]? = some line ∧ ∃ name, (column, name) ∈ readings rules line := by
  induction lines generalizing n with
  | nil => simp [readPlaces]
  | cons line lines ih =>
    rw [readPlaces, List.mem_append, ih]
    constructor
    · rintro (h | ⟨k, l, rfl, hl, hname⟩)
      · obtain ⟨r, hr, heq⟩ := List.mem_map.mp h
        cases heq
        exact ⟨0, line, rfl, rfl, r.2, hr⟩
      · exact ⟨k + 1, l, by omega, hl, hname⟩
    · rintro ⟨k, l, rfl, hl, name, hname⟩
      cases k with
      | zero =>
        cases hl
        exact .inl (List.mem_map.mpr ⟨_, hname, rfl⟩)
      | succ k => exact .inr ⟨k, l, by omega, hl, name, hname⟩

/-- Where no column has two names, no place is read twice. -/
theorem nodup_readPlaces {rules : List AccessRule}
    (h : ∀ line, ((readings rules line).map Prod.fst).Nodup) (n : Nat) (lines : List Text) :
    (readPlaces rules n lines).Nodup := by
  induction lines generalizing n with
  | nil => exact List.nodup_nil
  | cons line lines ih =>
    have hline : ((readings rules line).map fun r => (n, r.1)).Nodup := by
      have hinj : Function.Injective fun column : Nat => (n, column) := by
        intro a b hab
        exact (Prod.mk.inj hab).2
      have hmap := List.Nodup.map hinj (h line)
      rwa [List.map_map] at hmap
    refine List.nodup_append.mpr ⟨hline, ih (n + 1), ?_⟩
    rintro a ha b hb rfl
    obtain ⟨r, -, rfl⟩ := List.mem_map.mp ha
    obtain ⟨k, -, hk, -⟩ := mem_readPlaces.mp hb
    omega

/-- **Every reading is one location.** -/
theorem count_find (rules : List AccessRule) (content file : Text) (i : Nat) :
    countLocations (find rules content file) = (readPlaces rules i (Text.lines content)).length := by
  have hlines : ∀ (n i : Nat) (lines : List Text),
      countLocations (inLines rules file n lines) = (readPlaces rules i lines).length := by
    intro n i lines
    induction lines generalizing n i with
    | nil => rfl
    | cons line lines ih =>
      rw [inLines, readPlaces, countLocations_append, countLocations_inLine, ih _ (i + 1),
        List.length_append, List.length_map]
  have hperm := namedLocations_mergeInto [] (inLines rules file 1 (Text.lines content))
  rw [countLocations_eq_length, find, hperm.length_eq, ← hlines 1 i, countLocations_eq_length]
  rfl

end EnvAudit.EnvKeyUsage
