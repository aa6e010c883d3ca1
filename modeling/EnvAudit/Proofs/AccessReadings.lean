import EnvAudit.Proofs.AccessForms
import EnvAudit.Proofs.ReadingOrder
import Mathlib.Data.List.Infix

/-!
# What the registry reads

Heads of forms hold no start of a head but their own, and nothing behind a head does. So no access
hides another one: the rules of the registry are sparse (`isSparse_alts`), and what they read at a
column is what a form reads there (`mem_readings_registry`). At one place all forms read one name
(`name?_agree`).
-/
namespace EnvAudit

namespace Pattern

/-! ## Matches of forms -/

section

variable {line : Text} {i j : Nat}

theorem matches_literal {t : Text} (h : (literal t).Matches line i j) :
    t <+: line.drop i ∧ j = i + t.length := by
  induction t generalizing i with
  | nil => exact ⟨List.nil_prefix, (show i = j from h).symm⟩
  | cons c t ih =>
    have hcons : ∃ k, (Pattern.one (.single c)).Matches line i k ∧ (literal t).Matches line k j := by
      cases t with
      | nil => exact ⟨j, h, rfl⟩
      | cons d t => exact h
    obtain ⟨k, ⟨d, hd, hc, rfl⟩, hrest⟩ := hcons
    obtain ⟨hfront, rfl⟩ := ih hrest
    rw [CharClass.accepts_single, beq_iff_eq] at hc
    subst hc
    obtain ⟨hlt, hget⟩ := List.getElem?_eq_some_iff.mp hd
    refine ⟨?_, by rw [List.length_cons]; omega⟩
    rw [List.drop_eq_getElem_cons hlt, hget]
    exact (List.prefix_cons_inj d).mpr hfront

theorem matches_alts {ps : List Pattern} (hne : ps ≠ []) (h : (alts ps).Matches line i j) :
    ∃ p ∈ ps, p.Matches line i j := by
  induction ps with
  | nil => exact absurd rfl hne
  | cons p ps ih =>
    cases ps with
    | nil => exact ⟨p, List.mem_cons_self, h⟩
    | cons q ps =>
      rcases h with h | h
      · exact ⟨p, List.mem_cons_self, h⟩
      · obtain ⟨r, hr, hm⟩ := ih (List.cons_ne_nil q ps) h
        exact ⟨r, List.mem_cons_of_mem p hr, hm⟩

end

end Pattern

namespace AccessForm

open Pattern

/-- A head in a text holds no start of a head but its own. -/
theorem not_head_inside {f g : AccessForm} (hf : f ∈ registry.flatten) (hg : g ∈ registry.flatten)
    {t : Text} (hhead : f.head <+: t) {d : Nat} (hd : 0 < d) (hlt : d < f.head.length) :
    ¬ g.head <+: t.drop d := by
  intro hinside
  obtain ⟨hfg, hgf⟩ := registry_heads_apart f hf g hg d hlt hd
  rcases List.prefix_or_prefix_of_prefix (hhead.drop d) hinside with h | h
  · exact hfg h
  · exact hgf h

/-- **No access starts inside another one.** -/
theorem isSparse_alts {fs : List AccessForm} (hne : fs ≠ []) (hfs : fs ⊆ registry.flatten) :
    (alts (fs.map pattern)).IsSparse := by
  intro line i j k l hm hik hkj hm'
  have hform : ∀ {i j}, (alts (fs.map pattern)).Matches line i j → ∃ f ∈ registry.flatten,
      f.head <+: line.drop i ∧ f.tail.Matches line (i + f.head.length) j := by
    intro i j h
    obtain ⟨_, hp, h⟩ := matches_alts (by simpa using hne) h
    obtain ⟨f, hf, rfl⟩ := List.mem_map.mp hp
    obtain ⟨n, hhead, htail⟩ := h
    obtain ⟨hfront, rfl⟩ := matches_literal hhead
    exact ⟨f, hfs hf, hfront, htail⟩
  obtain ⟨f, hf, hfhead, hftail⟩ := hform hm
  obtain ⟨g, hg, hghead, -⟩ := hform hm'
  by_cases hk : k < i + f.head.length
  · -- the head of the second would start inside the head of the first
    refine not_head_inside hf hg hfhead (d := k - i) (by omega) (by omega) ?_
    rwa [List.drop_drop, Nat.add_sub_cancel' (Nat.le_of_lt hik)]
  · -- the tail of the first would take the first character of the second
    have hreject := registry_tails f hf g hg
    cases hhead : g.head with
    | nil => simp [hhead] at hreject
    | cons c rest =>
      rw [hhead, List.head?_cons, Option.any_some] at hreject
      refine not_taken_of_rejects hreject hftail (Nat.le_of_not_lt hk) hkj ?_
      obtain ⟨after, hafter⟩ := hghead
      rw [← Nat.add_zero k, ← List.getElem?_drop, ← hafter, hhead]
      rfl

/-! ## Names of forms -/

/-- What stands behind a name says whether it is read, and not which name it is. -/
theorem name?_eq {f : AccessForm} {t name : Text} (h : f.name? t = some name) :
    (f.after? t).bind AccessRule.leadingName? = some name := by
  obtain ⟨rest, hrest, h⟩ := Option.bind_eq_some_iff.mp h
  split at h
  · rw [hrest]
    exact h
  · cases h

/-- A form that asks for nothing behind a name reads every name. -/
theorem name?_of_nothing {f : AccessForm} (h : f.closing = .nothing) (t : Text) :
    f.name? t = (f.after? t).bind AccessRule.leadingName? := by
  rw [name?, h]
  rfl

theorem ne_nil_of_name? {f : AccessForm} {t name : Text} (h : f.name? t = some name) : name ≠ [] := by
  obtain ⟨rest, -, hrest⟩ := Option.bind_eq_some_iff.mp (name?_eq h)
  exact AccessRule.ne_nil_of_leadingName? hrest

theorem head_prefix_of_name? {f : AccessForm} {t name : Text} (h : f.name? t = some name) :
    f.head <+: t := by
  obtain ⟨rest, hafter, -⟩ := Option.bind_eq_some_iff.mp h
  obtain ⟨rest, hhead, -⟩ := Option.bind_eq_some_iff.mp hafter
  exact ⟨rest, List.isPrefixOf?_eq_some_iff_append_eq.mp hhead⟩

/-- Two heads at one place are the same, and so is what stands between head and name. -/
theorem head_unique {f g : AccessForm} (hf : f ∈ registry.flatten) (hg : g ∈ registry.flatten)
    {t : Text} (hfhead : f.head <+: t) (hghead : g.head <+: t) :
    f.head = g.head ∧ f.opening = g.opening := by
  rcases List.prefix_or_prefix_of_prefix hfhead hghead with hfg | hgf
  · exact registry_heads f hf g hg hfg
  · obtain ⟨hhead, hopening⟩ := registry_heads g hg f hf hgf
    exact ⟨hhead.symm, hopening.symm⟩

theorem after?_congr {f g : AccessForm} (h : f.head = g.head ∧ f.opening = g.opening) (t : Text) :
    f.after? t = g.after? t := by
  rw [after?, after?, h.1, h.2]

/-- **Forms that read one place read one name.** -/
theorem name?_agree {f g : AccessForm} (hf : f ∈ registry.flatten) (hg : g ∈ registry.flatten)
    {t name name' : Text} (h : f.name? t = some name) (h' : g.name? t = some name') :
    name = name' := by
  have hsame := head_unique hf hg (head_prefix_of_name? h) (head_prefix_of_name? h')
  have heq := name?_eq h
  rw [after?_congr hsame, name?_eq h'] at heq
  exact (Option.some.inj heq).symm

theorem captures_alts {fs : List AccessForm} (hne : fs ≠ []) :
    Captures (alts (fs.map pattern)) fun t _ => (fs.findSome? (·.name? t)).map some := by
  induction fs with
  | nil => exact absurd rfl hne
  | cons f fs ih =>
    cases fs with
    | nil =>
      intro b t cap
      refine (f.captures b t cap).trans ?_
      cases hname : f.name? t <;> simp [hname]
    | cons g fs =>
      intro b t cap
      refine (f.captures.alt (ih (List.cons_ne_nil g fs)) b t cap).trans ?_
      simp only [List.findSome?_cons]
      cases f.name? t <;> rfl

end AccessForm

/-! ## Readings of a rule -/

namespace AccessRule

open Pattern AccessForm

variable {rule other : AccessRule} {fs : List AccessForm}

/-- The match of a rule that starts at a column of a line. -/
def matchAt? (rule : AccessRule) (line : Text) (column : Nat) : Option Place :=
  rule.pattern.run (.atColumn line column) some

theorem names_congr (h : ∀ s k, rule.pattern.run s k = other.pattern.run s k) (line : Text) :
    rule.names line = other.names line := by
  rw [names, names, hits_congr h]

/-- A sparse rule reads a name wherever a match of it captures one. -/
theorem mem_names_iff_matchAt? (hp : rule.pattern.isRegular = true)
    (hw : 0 < (rule.pattern.width (0, none)).1) (hs : rule.pattern.IsSparse) {line : Text}
    {column : Nat} {name : Text} :
    (column, name) ∈ rule.names line ↔
      column ≤ line.length ∧ name ≠ [] ∧
        (rule.matchAt? line column).bind (·.captured) = some name := by
  rw [names, List.mem_filterMap]
  constructor
  · rintro ⟨hit, hhit, hname⟩
    obtain ⟨hin, -⟩ := (cover_hits hp hw line).isIn hit hhit
    obtain ⟨hstart, hrun⟩ := (mem_hits_iff hp hw hs).mp hhit
    split at hname
    · rename_i c rest hcaptured
      cases hname
      refine ⟨hin.startAt.le, List.cons_ne_nil c rest, ?_⟩
      rw [matchAt?, ← hstart, hrun]
      exact hcaptured
    · cases hname
  · rintro ⟨hle, hne, hname⟩
    obtain ⟨stop, hrun, hcaptured⟩ := Option.bind_eq_some_iff.mp hname
    have hcolumn : Hit.column ⟨.atColumn line column, stop⟩ = column :=
      (Place.isAt_atColumn hle).column_eq
    refine ⟨⟨.atColumn line column, stop⟩, ?_, ?_⟩
    · rw [mem_hits_iff hp hw hs, hcolumn]
      exact ⟨rfl, hrun⟩
    · obtain ⟨c, rest, rfl⟩ := List.exists_cons_of_ne_nil hne
      simp only [hcaptured, hcolumn]

/-! ## Readings of the registry -/

theorem IsChoice.captures (h : rule.IsChoice fs) :
    Captures rule.pattern fun t _ => (fs.findSome? (·.name? t)).map some := by
  intro b t cap
  rw [h.run_eq]
  exact captures_alts h.nonempty b t cap

/-- A choice of forms of the registry reads what one of the forms does. -/
theorem IsChoice.findSome?_iff (hfs : fs ∈ AccessForm.registry) {t name : Text} :
    fs.findSome? (·.name? t) = some name ↔ ∃ f ∈ fs, f.name? t = some name := by
  have hflat : ∀ f ∈ fs, f ∈ AccessForm.registry.flatten := fun f hf =>
    List.mem_flatten_of_mem hfs hf
  constructor
  · exact List.exists_of_findSome?_eq_some
  · rintro ⟨f, hf, hname⟩
    cases hfirst : fs.findSome? (·.name? t) with
    | none =>
      rw [List.findSome?_eq_none_iff.mp hfirst f hf] at hname
      cases hname
    | some first =>
      obtain ⟨g, hg, hname'⟩ := List.exists_of_findSome?_eq_some hfirst
      rw [name?_agree (hflat g hg) (hflat f hf) hname' hname]

/-- **A rule of the registry reads at every column what a form of it reads there.** -/
theorem mem_names_iff (h : rule.IsChoice fs) (hfs : fs ∈ AccessForm.registry) {line : Text}
    {column : Nat} {name : Text} :
    (column, name) ∈ rule.names line ↔ ∃ f ∈ fs, f.name? (line.drop column) = some name := by
  have hflat : fs ⊆ AccessForm.registry.flatten := fun f hf => List.mem_flatten_of_mem hfs hf
  obtain ⟨hregular, hwidth⟩ := registry_regular fs hfs
  have hnames : rule.names line = AccessRule.names ⟨alts (fs.map (·.pattern))⟩ line :=
    names_congr h.run_eq line
  rw [hnames, mem_names_iff_matchAt? hregular hwidth (isSparse_alts h.nonempty hflat), matchAt?,
    Place.atColumn, (captures_alts h.nonempty).bind_captured, IsChoice.findSome?_iff hfs]
  constructor
  · rintro ⟨-, -, hname⟩
    exact hname
  · rintro ⟨f, hf, hname⟩
    refine ⟨?_, ne_nil_of_name? hname, f, hf, hname⟩
    by_contra hle
    rw [List.drop_of_length_le (by omega), registry_name?_nil f (hflat hf)] at hname
    cases hname

/-- Rules that choose forms of the registry read what the forms do. -/
theorem exists_mem_names_iff {rules : List AccessRule} {choices : List (List AccessForm)}
    (h : List.Forall₂ IsChoice rules choices) (hsub : choices ⊆ AccessForm.registry) {line : Text}
    {column : Nat} {name : Text} :
    (∃ rule ∈ rules, (column, name) ∈ rule.names line) ↔
      ∃ f ∈ choices.flatten, f.name? (line.drop column) = some name := by
  induction h with
  | nil => simp
  | cons hchoice _ ih =>
    obtain ⟨hfs, hsub⟩ := List.cons_subset.mp hsub
    simp only [List.exists_mem_cons_iff, mem_names_iff hchoice hfs, ih hsub, List.flatten_cons,
      List.mem_append, or_and_right, exists_or]

end AccessRule

/-- **What the registry reads at a column, a form of it reads there.** -/
theorem EnvKeyUsage.mem_readings_registry {line : Text} {column : Nat} {name : Text} :
    (column, name) ∈ readings AccessRule.registry line ↔
      ∃ f ∈ AccessForm.registry.flatten, f.name? (line.drop column) = some name :=
  mem_readings.trans (AccessRule.exists_mem_names_iff AccessRule.registry_choices (List.Subset.refl _))

end EnvAudit
