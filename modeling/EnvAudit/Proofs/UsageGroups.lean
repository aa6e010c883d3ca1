import EnvAudit.Proofs.UsageMerge
import Mathlib.Data.List.Basic

/-!
# Merging in groups

Merging into usages with distinct names is associative (`mergeInto_mergeInto`): what was merged
before may be merged as a whole. So it does not matter how usages are cut into groups before they
are merged, and the result is known from the usages alone (`merge_grouped`). Likewise a text may be
cut at a line feed, and what each part reads be merged (`find_append`).
-/
namespace EnvAudit

/-- The location in a text that has `n` lines more above it. -/
def EnvKeyLocation.movedDown (n : Nat) (l : EnvKeyLocation) : EnvKeyLocation :=
  { l with line := l.line + n }

namespace EnvKeyUsage

/-- The usage in a text that has `n` lines more above it. -/
def movedDown (n : Nat) (u : EnvKeyUsage) : EnvKeyUsage :=
  { u with locations := u.locations.map (·.movedDown n) }

/-! ## One usage after another -/

theorem addLocations_addLocations (name : Text) (ls ks : List EnvKeyLocation)
    (us : List EnvKeyUsage) :
    addLocations name ks (addLocations name ls us) = addLocations name (ls ++ ks) us := by
  induction us with
  | nil => simp [addLocations]
  | cons u us ih =>
    by_cases h : u.name = name
    · simp [addLocations, h]
    · simp [addLocations, h, ih]

/-- A name that is there keeps its place, so what is added to it may be added before or after. -/
theorem addLocations_comm {name other : Text} (h : name ≠ other) {us : List EnvKeyUsage}
    (hname : name ∈ names us) (ls ks : List EnvKeyLocation) :
    addLocations name ls (addLocations other ks us) =
      addLocations other ks (addLocations name ls us) := by
  induction us with
  | nil => simp at hname
  | cons u us ih =>
    by_cases hu : u.name = name
    · subst hu
      simp [addLocations, h]
    · have hmem : name ∈ names us := by simpa [Ne.symm hu] using hname
      by_cases ho : u.name = other
      · simp [addLocations, ho, Ne.symm h]
      · simp [addLocations, hu, ho, ih hmem]

/-- What is added to a name may be added before other names are merged. -/
theorem addLocations_mergeInto {name : Text} {us : List EnvKeyUsage} (hus : name ∉ names us)
    {merged : List EnvKeyUsage} (hname : name ∈ names merged) (ls : List EnvKeyLocation) :
    addLocations name ls (mergeInto merged us) = mergeInto (addLocations name ls merged) us := by
  induction us generalizing merged with
  | nil => rfl
  | cons u us ih =>
    simp only [names_cons, List.mem_cons, not_or] at hus
    have hstep : name ∈ names (addLocations u.name u.locations merged) := by
      rw [names_addLocations]
      split
      · exact hname
      · exact List.mem_append_left _ hname
    have hcomm := addLocations_comm hus.1 hname ls u.locations
    calc addLocations name ls (mergeInto merged (u :: us))
        = addLocations name ls (mergeInto (addLocations u.name u.locations merged) us) := rfl
      _ = mergeInto (addLocations name ls (addLocations u.name u.locations merged)) us :=
          ih hus.2 hstep
      _ = mergeInto (addLocations name ls merged) (u :: us) := by rw [hcomm]; rfl

/-- A usage more at the end, or more for one name before the whole is merged. -/
theorem mergeInto_addLocations {us : List EnvKeyUsage} (hnd : (names us).Nodup)
    (merged : List EnvKeyUsage) (name : Text) (ls : List EnvKeyLocation) :
    mergeInto merged (addLocations name ls us) = addLocations name ls (mergeInto merged us) := by
  induction us generalizing merged with
  | nil => rfl
  | cons u us ih =>
    rw [names_cons, List.nodup_cons] at hnd
    by_cases h : u.name = name
    · subst h
      have hmem : u.name ∈ names (addLocations u.name u.locations merged) := by
        rw [names_addLocations]
        split <;> simp_all
      calc mergeInto merged (addLocations u.name ls (u :: us))
          = mergeInto (addLocations u.name (u.locations ++ ls) merged) us := by
            simp [addLocations, mergeInto]
        _ = mergeInto (addLocations u.name ls (addLocations u.name u.locations merged)) us := by
            rw [addLocations_addLocations]
        _ = addLocations u.name ls (mergeInto merged (u :: us)) :=
            (addLocations_mergeInto hnd.1 hmem ls).symm
    · have hstep := ih hnd.2 (addLocations u.name u.locations merged)
      simpa [addLocations, h, mergeInto] using hstep

/-- **Merging is associative.** -/
theorem mergeInto_mergeInto {us : List EnvKeyUsage} (hnd : (names us).Nodup)
    (merged vs : List EnvKeyUsage) :
    mergeInto merged (mergeInto us vs) = mergeInto (mergeInto merged us) vs := by
  induction vs generalizing us with
  | nil => rfl
  | cons v vs ih =>
    have hstep := ih (nodup_addLocations hnd v.name v.locations)
    rw [mergeInto_addLocations hnd] at hstep
    exact hstep

/-! ## Groups -/

theorem merge_map_merge (groups : List (List (List EnvKeyUsage))) :
    merge (groups.map merge) = merge groups.flatten := by
  have hfold : ∀ merged, (groups.map merge).foldl mergeInto merged =
      groups.flatten.foldl mergeInto merged := by
    induction groups with
    | nil => intro merged; rfl
    | cons group groups ih =>
      intro merged
      have hnil : (names []).Nodup := List.nodup_nil
      have hgroup : mergeInto merged (merge group) = group.foldl mergeInto merged := by
        rw [merge_eq_mergeInto, mergeInto_mergeInto hnil]
        exact List.foldl_flatten
      rw [List.map_cons, List.foldl_cons, hgroup, ih, List.flatten_cons, List.foldl_append]
  exact hfold []

theorem nodup_merge (ps : List (List EnvKeyUsage)) : (names (merge ps)).Nodup := by
  have hfold : ∀ us merged : List EnvKeyUsage, (names merged).Nodup →
      (names (mergeInto merged us)).Nodup := by
    intro us
    induction us with
    | nil => exact fun merged h => h
    | cons u us ih => exact fun merged h => ih _ (nodup_addLocations h u.name u.locations)
  rw [merge_eq_mergeInto]
  exact hfold _ [] List.nodup_nil

/-- The names that were not there come behind, each where it comes first. -/
theorem names_mergeInto (merged us : List EnvKeyUsage) :
    names (mergeInto merged us) =
      names merged ++ ((names us).removeAll (names merged)).eraseDups := by
  induction us generalizing merged with
  | nil => simp [mergeInto]
  | cons u us ih =>
    have hstep := ih (addLocations u.name u.locations merged)
    rw [names_addLocations] at hstep
    by_cases h : u.name ∈ names merged
    · rw [if_pos h] at hstep
      rw [names_cons, List.cons_removeAll, if_neg (by simpa using h)]
      exact hstep
    · rw [if_neg h] at hstep
      have hrest : (names us).removeAll (names merged ++ [u.name]) =
          ((names us).removeAll (names merged)).filter fun n => !n == u.name := by
        rw [List.removeAll, List.removeAll, List.filter_filter]
        exact List.filter_congr fun n _ => Bool.eq_iff_iff.mpr (by simp [and_comm])
      rw [names_cons, List.cons_removeAll, if_pos (by simpa using h), List.eraseDups_cons, ← hrest]
      exact hstep.trans (List.append_assoc ..)

/-- A merge has the names in the order in which they come first. -/
theorem names_merge (ps : List (List EnvKeyUsage)) :
    names (merge ps) = (names ps.flatten).eraseDups := by
  rw [merge_eq_mergeInto, names_mergeInto, names_nil, List.nil_append, List.removeAll_nil]

/-- Usages with distinct names are known from their names and from the places that read each. -/
theorem eq_map_locationsOf {us : List EnvKeyUsage} (h : (names us).Nodup) :
    us = (names us).map fun name => ⟨name, locationsOf name us⟩ := by
  induction us with
  | nil => rfl
  | cons u us ih =>
    rw [names_cons, List.nodup_cons] at h
    have hhead : locationsOf u.name (u :: us) = u.locations := by
      rw [locationsOf, if_pos rfl, locationsOf_of_not_mem h.1, List.append_nil]
    have htail : ∀ name ∈ names us, locationsOf name (u :: us) = locationsOf name us := by
      intro name hname
      have hne : u.name ≠ name := fun e => h.1 (e ▸ hname)
      rw [locationsOf, if_neg hne, List.nil_append]
    rw [names_cons, List.map_cons, hhead]
    refine congrArg (u :: ·) ((ih h.2).trans (List.map_congr_left fun name hname => ?_))
    rw [htail name hname]

/-! ## Places -/

/-- Every place with the name that it reads. -/
def namedLocations (us : List EnvKeyUsage) : List (Text × EnvKeyLocation) :=
  us.flatMap fun u => u.locations.map fun l => (u.name, l)

theorem namedLocations_addLocations (name : Text) (ls : List EnvKeyLocation)
    (us : List EnvKeyUsage) :
    (namedLocations (addLocations name ls us)).Perm
      (namedLocations us ++ ls.map fun l => (name, l)) := by
  induction us with
  | nil => simp [namedLocations, addLocations]
  | cons u us ih =>
    by_cases h : u.name = name
    · subst h
      simp only [namedLocations, addLocations, if_true, List.flatMap_cons, List.map_append,
        List.append_assoc]
      exact List.perm_append_comm.append_left _
    · simp only [namedLocations, addLocations, if_neg h, List.flatMap_cons, List.append_assoc]
      exact ih.append_left _

theorem namedLocations_mergeInto (merged us : List EnvKeyUsage) :
    (namedLocations (mergeInto merged us)).Perm (namedLocations merged ++ namedLocations us) := by
  induction us generalizing merged with
  | nil => simp [mergeInto, namedLocations]
  | cons u us ih =>
    have hadd := namedLocations_addLocations u.name u.locations merged
    have hstep := (ih (addLocations u.name u.locations merged)).trans (hadd.append_right _)
    rw [List.append_assoc] at hstep
    exact hstep

/-- **A merge does not depend on groups, and keeps every place where it was read.** However usages
are cut into groups, merging each group and then the results is merging all at once. The result has
one usage for each name, in the order in which the names come first, with the places of all usages
of the name in order; no place is lost, comes twice or goes to another name. -/
theorem merge_grouped (groups : List (List (List EnvKeyUsage))) :
    merge (groups.map merge) = merge groups.flatten ∧
      (names (merge groups.flatten)).Nodup ∧
      merge groups.flatten = (names groups.flatten.flatten).eraseDups.map
        (fun name => ⟨name, locationsOf name groups.flatten.flatten⟩) ∧
      (namedLocations (merge groups.flatten)).Perm (namedLocations groups.flatten.flatten) := by
  have hnd := nodup_merge groups.flatten
  refine ⟨merge_map_merge groups, hnd, ?_, ?_⟩
  · rw [← names_merge]
    refine (eq_map_locationsOf hnd).trans (List.map_congr_left fun name _ => ?_)
    rw [locationsOf_merge, locationsOf_flatten]
  · rw [merge_eq_mergeInto]
    exact namedLocations_mergeInto [] groups.flatten.flatten

/-! ## Texts cut at a line feed -/

theorem addLocations_movedDown (n : Nat) (name : Text) (ls : List EnvKeyLocation)
    (us : List EnvKeyUsage) :
    addLocations name (ls.map (·.movedDown n)) (us.map (movedDown n)) =
      (addLocations name ls us).map (movedDown n) := by
  induction us with
  | nil => rfl
  | cons u us ih =>
    by_cases h : u.name = name
    · simp [addLocations, movedDown, h]
    · have hmoved : (u.movedDown n).name ≠ name := h
      rw [List.map_cons, addLocations, if_neg hmoved, ih, addLocations, if_neg h, List.map_cons]

theorem mergeInto_movedDown (n : Nat) (merged us : List EnvKeyUsage) :
    mergeInto (merged.map (movedDown n)) (us.map (movedDown n)) =
      (mergeInto merged us).map (movedDown n) := by
  induction us generalizing merged with
  | nil => rfl
  | cons u us ih =>
    have hstep := ih (addLocations u.name u.locations merged)
    rw [← addLocations_movedDown] at hstep
    exact hstep

theorem inLine_add (rules : List AccessRule) (file line : Text) (k n : Nat) :
    inLine rules file (k + n) line = (inLine rules file k line).map (movedDown n) := by
  simp [inLine, movedDown, EnvKeyLocation.movedDown]

theorem inLines_add (rules : List AccessRule) (file : Text) (k n : Nat) (lines : List Text) :
    inLines rules file (k + n) lines = (inLines rules file k lines).map (movedDown n) := by
  induction lines generalizing k with
  | nil => rfl
  | cons line lines ih =>
    rw [inLines, inLines, List.map_append, inLine_add, Nat.add_right_comm, ih]

theorem inLines_append (rules : List AccessRule) (file : Text) (k : Nat) (above below : List Text) :
    inLines rules file k (above ++ below) =
      inLines rules file k above ++ inLines rules file (k + above.length) below := by
  induction above generalizing k with
  | nil => rfl
  | cons line above ih =>
    rw [List.cons_append, inLines, inLines, ih, List.append_assoc, List.length_cons,
      Nat.add_assoc k, Nat.add_comm 1]

/-- **What a text reads is what its parts read, merged.** The text is cut at a line feed; the lines
of the second part are counted on from those of the first. -/
theorem find_append (rules : List AccessRule) (above below file : Text) :
    find rules (above ++ '\n' :: below) file =
      merge [find rules above file,
        (find rules below file).map (movedDown (Text.lines above).length)] := by
  have hlines : Text.lines (above ++ '\n' :: below) = Text.lines above ++ Text.lines below :=
    Text.splitOn_append '\n' above below
  have hbelow : (find rules below file).map (movedDown (Text.lines above).length) =
      mergeInto [] (inLines rules file (1 + (Text.lines above).length) (Text.lines below)) := by
    rw [find, ← mergeInto_movedDown, inLines_add, List.map_nil]
  have hgroups (us vs : List EnvKeyUsage) :
      merge [mergeInto [] us, mergeInto [] vs] = mergeInto [] (us ++ vs) :=
    calc merge [mergeInto [] us, mergeInto [] vs]
        = merge ([[us], [vs]].map merge) := rfl
      _ = merge [us, vs] := merge_map_merge [[us], [vs]]
      _ = mergeInto [] (us ++ vs) := (mergeInto_append [] us vs).symm
  rw [hbelow, find, find, hgroups, hlines, inLines_append]

end EnvKeyUsage
end EnvAudit
