import EnvAudit.EnvVar.Usage

/-!
# Merged usages

Merging usages keeps one usage for each name, and for each name the locations of all usages in
order. So for one name a merge is the concatenation of the parts (`locationsOf_merge`), whatever
other names there are, and a name is there if a part has it (`mem_names_merge`).
-/
namespace EnvAudit.EnvKeyUsage

/-- The names of usages, in order. -/
def names (us : List EnvKeyUsage) : List Text := us.map (·.name)

@[simp] theorem names_nil : names [] = [] := rfl

@[simp] theorem names_cons (u : EnvKeyUsage) (us : List EnvKeyUsage) :
    names (u :: us) = u.name :: names us := rfl

/-- All places that read a variable, in order. -/
def locationsOf (name : Text) : List EnvKeyUsage → List EnvKeyLocation
  | [] => []
  | u :: us => (if u.name = name then u.locations else []) ++ locationsOf name us

theorem locationsOf_append (name : Text) (us vs : List EnvKeyUsage) :
    locationsOf name (us ++ vs) = locationsOf name us ++ locationsOf name vs := by
  induction us with
  | nil => rfl
  | cons u us ih => rw [List.cons_append, locationsOf, locationsOf, ih, List.append_assoc]

theorem locationsOf_flatten (name : Text) (ps : List (List EnvKeyUsage)) :
    locationsOf name ps.flatten = ps.flatMap (locationsOf name) := by
  induction ps with
  | nil => rfl
  | cons us ps ih => rw [List.flatten_cons, locationsOf_append, ih, List.flatMap_cons]

theorem locationsOf_of_not_mem {name : Text} {us : List EnvKeyUsage} (h : name ∉ names us) :
    locationsOf name us = [] := by
  induction us with
  | nil => rfl
  | cons u us ih =>
    simp only [names_cons, List.mem_cons, not_or] at h
    rw [locationsOf, if_neg (Ne.symm h.1), ih h.2, List.append_nil]

theorem mem_locationsOf {name : Text} {us : List EnvKeyUsage} {l : EnvKeyLocation}
    (h : l ∈ locationsOf name us) : ∃ u ∈ us, l ∈ u.locations := by
  induction us with
  | nil => cases h
  | cons u us ih =>
    rcases List.mem_append.mp h with h | h
    · split at h
      · exact ⟨u, List.mem_cons_self, h⟩
      · cases h
    · obtain ⟨v, hv, hl⟩ := ih h
      exact ⟨v, List.mem_cons_of_mem _ hv, hl⟩

/-! ## One usage more -/

theorem names_addLocations (name : Text) (locations : List EnvKeyLocation)
    (us : List EnvKeyUsage) :
    names (addLocations name locations us) =
      if name ∈ names us then names us else names us ++ [name] := by
  induction us with
  | nil => rfl
  | cons u us ih =>
    by_cases h : u.name = name
    · simp [addLocations, h]
    · rw [addLocations, if_neg h, names_cons, ih, names_cons]
      simp only [List.mem_cons, Ne.symm h, false_or]
      split <;> rfl

theorem nodup_addLocations {us : List EnvKeyUsage} (h : (names us).Nodup) (name : Text)
    (locations : List EnvKeyLocation) : (names (addLocations name locations us)).Nodup := by
  rw [names_addLocations]
  split
  · exact h
  · rename_i hn
    refine List.nodup_append.mpr ⟨h, by simp, fun a ha b hb e => hn ?_⟩
    rwa [← List.mem_singleton.mp hb, ← e]

/-- Locations that are added come behind those that the name has. -/
theorem locationsOf_addLocations {us : List EnvKeyUsage} (h : (names us).Nodup) (name other : Text)
    (locations : List EnvKeyLocation) :
    locationsOf other (addLocations name locations us) =
      locationsOf other us ++ if name = other then locations else [] := by
  induction us with
  | nil => simp [addLocations, locationsOf]
  | cons u us ih =>
    rw [names_cons, List.nodup_cons] at h
    by_cases hn : u.name = name
    · subst hn
      simp only [addLocations, if_true, locationsOf]
      by_cases ho : u.name = other
      · subst ho
        simp [locationsOf_of_not_mem h.1]
      · simp [ho]
    · simp only [addLocations, if_neg hn, locationsOf, ih h.2, List.append_assoc]

/-! ## Many usages -/

theorem locationsOf_mergeInto {merged : List EnvKeyUsage} (h : (names merged).Nodup)
    (us : List EnvKeyUsage) (name : Text) :
    locationsOf name (mergeInto merged us) = locationsOf name merged ++ locationsOf name us := by
  induction us generalizing merged with
  | nil => simp [mergeInto, locationsOf]
  | cons u us ih =>
    have hstep := ih (nodup_addLocations h u.name u.locations)
    rw [mergeInto, List.foldl_cons, ← mergeInto, hstep, locationsOf_addLocations h, locationsOf,
      List.append_assoc]

/-- Grouping by name keeps the places that read a name as they come. -/
theorem locationsOf_find (rules : List AccessRule) (content file name : Text) :
    locationsOf name (find rules content file) =
      locationsOf name (inLines rules file 1 (Text.lines content)) := by
  have hnil : (names []).Nodup := List.nodup_nil
  rw [find, locationsOf_mergeInto hnil, locationsOf, List.nil_append]

theorem mem_names_mergeInto (merged us : List EnvKeyUsage) (name : Text) :
    name ∈ names (mergeInto merged us) ↔ name ∈ names merged ∨ name ∈ names us := by
  induction us generalizing merged with
  | nil => simp [mergeInto]
  | cons u us ih =>
    have hadd : name ∈ names (addLocations u.name u.locations merged) ↔
        name ∈ names merged ∨ name = u.name := by
      rw [names_addLocations]
      split
      · rename_i hu
        exact ⟨.inl, fun h => h.elim id fun e => e ▸ hu⟩
      · simp
    rw [mergeInto, List.foldl_cons, ← mergeInto, ih, hadd, names_cons, List.mem_cons, or_assoc]

/-! ## Several texts -/

theorem merge_eq_mergeInto (ps : List (List EnvKeyUsage)) : merge ps = mergeInto [] ps.flatten := by
  rw [merge, mergeInto, List.foldl_flatten]
  rfl

/-- **For one name a merge is the concatenation of the parts.** -/
theorem locationsOf_merge (ps : List (List EnvKeyUsage)) (name : Text) :
    locationsOf name (merge ps) = ps.flatMap (locationsOf name) := by
  rw [merge_eq_mergeInto, locationsOf_mergeInto (by simp), locationsOf, List.nil_append,
    locationsOf_flatten]

/-- A merge has the names of its parts. -/
theorem mem_names_merge {ps : List (List EnvKeyUsage)} {name : Text} :
    name ∈ names (merge ps) ↔ ∃ us ∈ ps, name ∈ names us := by
  rw [merge_eq_mergeInto, mem_names_mergeInto]
  simp only [names, List.map_nil, List.not_mem_nil, false_or, List.mem_map, List.mem_flatten]
  constructor
  · rintro ⟨u, ⟨us, hus, hu⟩, rfl⟩
    exact ⟨us, hus, u, hu, rfl⟩
  · rintro ⟨us, hus, u, hu, rfl⟩
    exact ⟨u, ⟨us, hus, hu⟩, rfl⟩

end EnvAudit.EnvKeyUsage
