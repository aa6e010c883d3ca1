import EnvAudit.Proofs.AccessReadings
import Mathlib.Data.Set.Card

/-!
# Every access once

However many rules match at a place, they capture one name there, so usages have as many locations
as there are places with a match. The rule for members with a default value matches only where the
one for members does, and finds nothing of its own.
-/
namespace EnvAudit

namespace AccessRule

/-- The places of a text where a rule has a match: lines by their numbers from zero, and columns. -/
def matchPlaces (rules : List AccessRule) (content : Text) : Set (Nat × Nat) :=
  {place | ∃ line, (Text.lines content)[place.1]? = some line ∧
    ∃ rule ∈ rules, (rule.matchAt? line place.2).isSome}

section

variable {rule : AccessRule} {line : Text} {column : Nat} {name : Text}

theorem exists_isChoice (hr : rule ∈ registry) : ∃ fs ∈ AccessForm.registry, rule.IsChoice fs := by
  have hall : ∀ {rules choices}, List.Forall₂ IsChoice rules choices → rule ∈ rules →
      ∃ fs ∈ choices, rule.IsChoice fs := by
    intro rules choices h
    induction h with
    | nil => simp
    | cons hchoice _ ih =>
      intro hmem
      rcases List.mem_cons.mp hmem with rfl | hmem
      · exact ⟨_, List.mem_cons_self, hchoice⟩
      · obtain ⟨fs, hfs, h⟩ := ih hmem
        exact ⟨fs, List.mem_cons_of_mem _ hfs, h⟩
  exact hall registry_choices hr

theorem IsChoice.captured_matchAt? {fs : List AccessForm} (h : rule.IsChoice fs) (line : Text)
    (column : Nat) : (rule.matchAt? line column).map (·.captured) =
      (fs.findSome? (·.name? (line.drop column))).map some :=
  h.captures ..

/-- What a match of the registry captures is read at its column. -/
theorem mem_names_of_matchAt? (hr : rule ∈ registry) {e : Place}
    (h : rule.matchAt? line column = some e) :
    ∃ name, e.captured = some name ∧ (column, name) ∈ rule.names line := by
  obtain ⟨fs, hfs, hchoice⟩ := exists_isChoice hr
  have hcaptured := hchoice.captured_matchAt? line column
  rw [h] at hcaptured
  obtain ⟨name, hname, hcaptured⟩ := Option.map_eq_some_iff.mp hcaptured.symm
  rw [IsChoice.findSome?_iff hfs] at hname
  exact ⟨name, hcaptured.symm, (mem_names_iff hchoice hfs).mpr hname⟩

theorem isSome_matchAt? (hr : rule ∈ registry) (h : (column, name) ∈ rule.names line) :
    (rule.matchAt? line column).isSome := by
  obtain ⟨fs, hfs, hchoice⟩ := exists_isChoice hr
  have hcaptured := hchoice.captured_matchAt? line column
  rw [mem_names_iff hchoice hfs, ← IsChoice.findSome?_iff hfs] at h
  rw [h] at hcaptured
  obtain ⟨e, he, -⟩ := Option.map_eq_some_iff.mp hcaptured
  exact Option.isSome_of_eq_some he

end
end AccessRule

namespace EnvKeyUsage

open AccessRule

section

variable {line : Text} {column : Nat} {name name' : Text}

/-- **At one column one name is read.** -/
theorem readings_name_unique (h : (column, name) ∈ readings registry line)
    (h' : (column, name') ∈ readings registry line) : name = name' := by
  obtain ⟨f, hf, hname⟩ := mem_readings_registry.mp h
  obtain ⟨g, hg, hname'⟩ := mem_readings_registry.mp h'
  exact AccessForm.name?_agree hf hg hname hname'

theorem nodup_columns_readings (line : Text) : ((readings registry line).map Prod.fst).Nodup := by
  refine List.Nodup.map_on ?_ (isOrdered_readings registry line).nodup
  rintro ⟨column, name⟩ h ⟨_, name'⟩ h' rfl
  rw [readings_name_unique h h']

theorem mem_matchPlaces {content : Text} {i : Nat} :
    (i, column) ∈ matchPlaces registry content ↔
      (i, column) ∈ readPlaces registry 0 (Text.lines content) := by
  rw [mem_readPlaces]
  constructor
  · rintro ⟨line, hline, rule, hr, hmatch⟩
    obtain ⟨e, he⟩ := Option.isSome_iff_exists.mp hmatch
    obtain ⟨name, -, hname⟩ := mem_names_of_matchAt? hr he
    exact ⟨i, line, (Nat.zero_add i).symm, hline, name, mem_readings.mpr ⟨rule, hr, hname⟩⟩
  · rintro ⟨k, line, rfl, hline, name, hname⟩
    obtain ⟨rule, hr, hname⟩ := mem_readings.mp hname
    rw [← Nat.zero_add k] at hline
    exact ⟨line, hline, rule, hr, isSome_matchAt? hr hname⟩

/-- **There are as many locations as places with a match.** -/
theorem encard_matchPlaces (content file : Text) :
    (matchPlaces registry content).encard = countLocations (find registry content file) := by
  have hnodup := nodup_readPlaces nodup_columns_readings 0 (Text.lines content)
  have hset : matchPlaces registry content =
      ((readPlaces registry 0 (Text.lines content)).toFinset : Set (Nat × Nat)) := by
    ext ⟨i, column⟩
    rw [mem_matchPlaces, List.coe_toFinset]
    exact Iff.rfl
  rw [hset, Set.encard_coe_eq_coe_finsetCard, List.toFinset_card_of_nodup hnodup,
    count_find registry content file 0]

/-- Every form is among those of the other rules, or one of theirs asks for less behind the name. -/
theorem forms_eraseIdx : ∀ f ∈ AccessForm.registry.flatten,
    f ∈ (AccessForm.registry.eraseIdx 5).flatten ∨
      ∃ g ∈ (AccessForm.registry.eraseIdx 5).flatten,
        (g.head = f.head ∧ g.opening = f.opening) ∧ g.closing = .nothing := by
  decide +kernel

/-- A member with a default value is a member. -/
theorem readings_eraseIdx (line : Text) :
    readings (registry.eraseIdx 5) line = readings registry line := by
  have hchoices : List.Forall₂ IsChoice (registry.eraseIdx 5) (AccessForm.registry.eraseIdx 5) := by
    rw [List.eraseIdx_eq_take_drop_succ, List.eraseIdx_eq_take_drop_succ]
    exact List.rel_append (List.forall₂_take 5 registry_choices)
      (List.forall₂_drop 6 registry_choices)
  have hsub : AccessForm.registry.eraseIdx 5 ⊆ AccessForm.registry := List.eraseIdx_subset
  refine readings_congr fun ⟨column, name⟩ => ?_
  rw [exists_mem_names_iff hchoices hsub,
    exists_mem_names_iff registry_choices (List.Subset.refl _)]
  constructor
  · rintro ⟨f, hf, hname⟩
    obtain ⟨fs, hfs, hf⟩ := List.mem_flatten.mp hf
    exact ⟨f, List.mem_flatten_of_mem (hsub hfs) hf, hname⟩
  · rintro ⟨f, hf, hname⟩
    rcases forms_eraseIdx f hf with hf | ⟨g, hg, hsame, hclosing⟩
    · exact ⟨f, hf, hname⟩
    · refine ⟨g, hg, ?_⟩
      rw [AccessForm.name?_of_nothing hclosing, AccessForm.after?_congr hsame]
      exact AccessForm.name?_eq hname

end

/-- **Every access counts once.** The rule for members with a default value adds nothing, matches at
one column capture one name, and there are as many locations as places with a match. -/
theorem find_counts_once (content file : Text) :
    find (registry.eraseIdx 5) content file = find registry content file ∧
      (∀ line : Text, ∀ rule ∈ registry, ∀ rule' ∈ registry, ∀ (column : Nat) (e e' : Place),
        rule.matchAt? line column = some e → rule'.matchAt? line column = some e' →
          e.captured = e'.captured) ∧
      (matchPlaces registry content).encard = countLocations (find registry content file) := by
  refine ⟨find_congr readings_eraseIdx content file, ?_, encard_matchPlaces content file⟩
  intro line rule hr rule' hr' column e e' he he'
  obtain ⟨name, hcaptured, hname⟩ := mem_names_of_matchAt? hr he
  obtain ⟨name', hcaptured', hname'⟩ := mem_names_of_matchAt? hr' he'
  have hsame := readings_name_unique (mem_readings.mpr ⟨rule, hr, hname⟩)
    (mem_readings.mpr ⟨rule', hr', hname'⟩)
  rw [hcaptured, hcaptured', hsame]

/-- A member with a default value is matched by two rules, up to different columns. -/
theorem find_counts_once_default :
    let line := "process.env.PORT ?? 3000".toList
    let name : Place := ⟨"TROP.vne.ssecorp".toList, " ?? 3000".toList, some "PORT".toList⟩
    let sign : Place := ⟨"?? TROP.vne.ssecorp".toList, " 3000".toList, some "PORT".toList⟩
    registry[0].matchAt? line 0 = some name ∧ registry[5].matchAt? line 0 = some sign ∧
      name.captured = sign.captured ∧ (matchPlaces registry line).encard = 1 := by
  intro line name sign
  have hname : registry[0].matchAt? line 0 = some name := rfl
  have hsign : registry[5].matchAt? line 0 = some sign := rfl
  have hone : countLocations (find registry line "a.js".toList) = 1 := by decide +kernel
  obtain ⟨-, hcaptured, hplaces⟩ := find_counts_once line "a.js".toList
  rw [hone] at hplaces
  exact ⟨hname, hsign, hcaptured line _ (List.getElem_mem _) _ (List.getElem_mem _) 0 name sign
    hname hsign, hplaces⟩

end EnvKeyUsage
end EnvAudit
