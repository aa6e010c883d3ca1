import EnvAudit.Proofs.ReadingOrder
import Mathlib.Data.Prod.Lex
import Mathlib.Order.Bounds.Basic

/-!
# First readings

The readings of a text stand in order of their places, by line and then by column, whatever the
order of the rules that read them. So the names of usages come in the order of the places where each
is read first, and every name has one location for each place, the upper ones first. Rules that are
the same but for their order and for repetitions find the same (`find_canonical`).
-/
namespace EnvAudit.EnvKeyUsage

/-! ## Values in order of their keys -/

section

variable {α β : Type} [LinearOrder α] {k : α} {v : β} {xs : List (α × β)}

/-- Whether keys with values stand in order of the keys. -/
def InOrder (xs : List (α × β)) : Prop := xs.Pairwise fun x y => x.1 ≤ y.1

theorem InOrder.head_le (h : InOrder ((k, v) :: xs)) {p : α} {w : β} (hp : (p, w) ∈ (k, v) :: xs) :
    k ≤ p := by
  rcases List.mem_cons.mp hp with heq | hp
  · exact (congrArg Prod.fst heq).ge
  · exact (List.pairwise_cons.mp h).1 _ hp

theorem InOrder.isLeast_head (h : InOrder ((k, v) :: xs)) :
    IsLeast {p | (p, v) ∈ (k, v) :: xs} k :=
  ⟨List.mem_cons_self, fun _ hp => h.head_le hp⟩

/-- Every value has a least key. -/
theorem InOrder.exists_isLeast (h : InOrder xs) (hv : v ∈ xs.map Prod.snd) :
    ∃ p, IsLeast {p | (p, v) ∈ xs} p := by
  induction xs with
  | nil => cases hv
  | cons x xs ih =>
    obtain ⟨k, w⟩ := x
    by_cases hw : w = v
    · exact ⟨k, hw ▸ h.isLeast_head⟩
    · have htail : ∀ p, (p, v) ∈ (k, w) :: xs ↔ (p, v) ∈ xs := by
        simp [Ne.symm hw]
      have hmem : v ∈ xs.map Prod.snd := (List.mem_cons.mp hv).resolve_left (Ne.symm hw)
      simpa only [htail] using ih (List.pairwise_cons.mp h).2 hmem

/-- **Values that stand in order of their keys come first in the order of their least keys.** -/
theorem InOrder.pairwise_eraseDups [BEq β] [LawfulBEq β] {xs : List (α × β)} (h : InOrder xs) :
    (xs.map Prod.snd).eraseDups.Pairwise fun v w => ∃ p q,
      IsLeast {p | (p, v) ∈ xs} p ∧ IsLeast {p | (p, w) ∈ xs} q ∧ p ≤ q := by
  match xs with
  | [] => exact List.Pairwise.nil
  | (k, v) :: xs =>
    -- behind the first value stand those of the others, with the same keys as before
    let others := xs.filter fun x => !x.2 == v
    have hvalues : (xs.map Prod.snd).filter (fun w => !w == v) = others.map Prod.snd :=
      List.filter_map ..
    have hothers : InOrder others := List.Pairwise.filter _ (List.pairwise_cons.mp h).2
    have hkeys : ∀ w ∈ (others.map Prod.snd).eraseDups, ∀ p,
        (p, w) ∈ others ↔ (p, w) ∈ (k, v) :: xs := by
      intro w hw p
      obtain ⟨x, hx, rfl⟩ := List.mem_map.mp (List.mem_eraseDups.mp hw)
      have hne : (!x.2 == v) = true := (List.mem_filter.mp hx).2
      have hne' : x.2 ≠ v := by simpa using hne
      rw [List.mem_filter, and_iff_left hne, List.mem_cons, or_iff_right]
      exact fun heq => hne' (congrArg Prod.snd heq)
    rw [List.map_cons, List.eraseDups_cons, hvalues, List.pairwise_cons]
    constructor
    · intro w hw
      obtain ⟨q, hq⟩ := hothers.exists_isLeast (List.mem_eraseDups.mp hw)
      simp only [hkeys w hw] at hq
      exact ⟨k, q, h.isLeast_head, hq, h.head_le hq.1⟩
    · refine hothers.pairwise_eraseDups.imp_of_mem fun {w w'} hw hw' hle => ?_
      simpa only [hkeys w hw, hkeys w' hw'] using hle
termination_by xs.length
decreasing_by exact Nat.lt_succ_of_le (List.length_filter_le _ _)

end

/-! ## Readings with their places -/

/-- The places that read a variable: lines by their numbers from zero, and columns. They are ordered
by line, then by column. -/
def placesOf (rules : List AccessRule) (content name : Text) : Set (Nat ×ₗ Nat) :=
  {p | ∃ line, (Text.lines content)[(ofLex p).1]? = some line ∧
    ∃ rule ∈ rules, ((ofLex p).2, name) ∈ rule.names line}

/-- The readings in the lines from number `i` on, each with its place. -/
def placedReadings (rules : List AccessRule) : Nat → List Text → List ((Nat ×ₗ Nat) × Text)
  | _, [] => []
  | i, line :: rest =>
    (readings rules line).map (fun r => (toLex (i, r.1), r.2)) ++ placedReadings rules (i + 1) rest

section

variable {rules : List AccessRule} {lines : List Text} {i : Nat}

theorem mem_placedReadings {p : Nat ×ₗ Nat} {name : Text} :
    (p, name) ∈ placedReadings rules i lines ↔ ∃ k line, (ofLex p).1 = i + k ∧
      lines[k]? = some line ∧ ((ofLex p).2, name) ∈ readings rules line := by
  induction lines generalizing i with
  | nil => simp [placedReadings]
  | cons line lines ih =>
    rw [placedReadings, List.mem_append, ih]
    constructor
    · rintro (h | ⟨k, l, hk, hl, hname⟩)
      · obtain ⟨r, hr, heq⟩ := List.mem_map.mp h
        cases heq
        exact ⟨0, line, rfl, rfl, hr⟩
      · exact ⟨k + 1, l, by omega, hl, hname⟩
    · rintro ⟨k, l, hk, hl, hname⟩
      cases k with
      | zero =>
        cases hl
        refine .inl (List.mem_map.mpr ⟨_, hname, Prod.ext ?_ rfl⟩)
        exact congrArg toLex (Prod.ext hk.symm rfl)
      | succ k => exact .inr ⟨k, l, by omega, hl, hname⟩

theorem mem_placedReadings_zero {content name : Text} {p : Nat ×ₗ Nat} :
    (p, name) ∈ placedReadings rules 0 (Text.lines content) ↔ p ∈ placesOf rules content name := by
  rw [mem_placedReadings]
  constructor
  · rintro ⟨k, line, hk, hline, hname⟩
    rw [Nat.zero_add] at hk
    exact ⟨line, hk ▸ hline, mem_readings.mp hname⟩
  · rintro ⟨line, hline, hname⟩
    exact ⟨_, line, (Nat.zero_add _).symm, hline, mem_readings.mpr hname⟩

/-- Readings stand in order of their places, and none stands twice. -/
theorem pairwise_placedReadings (rules : List AccessRule) (i : Nat) (lines : List Text) :
    (placedReadings rules i lines).Pairwise fun x y => x.1 ≤ y.1 ∧ x ≠ y := by
  induction lines generalizing i with
  | nil => exact List.Pairwise.nil
  | cons line lines ih =>
    refine List.pairwise_append.mpr ⟨List.pairwise_map.mpr ?_, ih (i + 1), ?_⟩
    · refine (isOrdered_readings rules line).imp fun {r r'} hr => ⟨?_, ?_⟩
      · rw [Prod.Lex.toLex_le_toLex]
        refine .inr ⟨rfl, ?_⟩
        rcases comesBefore_iff.mp hr with hlt | ⟨heq, -⟩
        · exact Nat.le_of_lt hlt
        · exact Nat.le_of_eq heq
      · intro heq
        obtain ⟨hplace, hname⟩ := Prod.mk.inj heq
        have hsame : r = r' := Prod.ext (Prod.mk.inj hplace).2 hname
        exact comesBefore_asymm hr (hsame ▸ hr)
    · rintro x hx ⟨q, name⟩ hy
      obtain ⟨r, -, rfl⟩ := List.mem_map.mp hx
      obtain ⟨k, -, hk, -⟩ := mem_placedReadings.mp hy
      have hlt : toLex (i, r.1) < q := Prod.Lex.lt_iff.mpr (.inl (by rw [hk]; change i < _; omega))
      exact ⟨hlt.le, fun heq => hlt.ne (Prod.mk.inj heq).1⟩

theorem inOrder_placedReadings (rules : List AccessRule) (i : Nat) (lines : List Text) :
    InOrder (placedReadings rules i lines) :=
  (pairwise_placedReadings rules i lines).imp fun h => h.1

/-! ## Usages from readings -/

theorem names_append (us vs : List EnvKeyUsage) : names (us ++ vs) = names us ++ names vs :=
  List.map_append

theorem names_inLines (rules : List AccessRule) (file : Text) (n i : Nat) (lines : List Text) :
    names (inLines rules file n lines) = (placedReadings rules i lines).map Prod.snd := by
  induction lines generalizing n i with
  | nil => rfl
  | cons line lines ih =>
    have hline : names (inLine rules file n line) = (readings rules line).map Prod.snd :=
      List.map_map ..
    rw [inLines, placedReadings, names_append, hline, ih _ (i + 1), List.map_append, List.map_map]
    rfl

/-- The places of a variable among readings. -/
def placesIn (name : Text) (rs : List ((Nat ×ₗ Nat) × Text)) : List (Nat ×ₗ Nat) :=
  (rs.filter fun r => r.2 == name).map Prod.fst

theorem mem_placesIn {name : Text} {rs : List ((Nat ×ₗ Nat) × Text)} {p : Nat ×ₗ Nat} :
    p ∈ placesIn name rs ↔ (p, name) ∈ rs := by
  simp [placesIn]

theorem pairwise_placesIn {rs : List ((Nat ×ₗ Nat) × Text)}
    (h : rs.Pairwise fun x y => x.1 ≤ y.1 ∧ x ≠ y) (name : Text) :
    (placesIn name rs).Pairwise (· < ·) := by
  refine List.pairwise_map.mpr ((h.filter _).imp_of_mem fun {x y} hx hy hxy => ?_)
  have hsame : x.2 = y.2 := by
    rw [beq_iff_eq.mp (List.mem_filter.mp hx).2, beq_iff_eq.mp (List.mem_filter.mp hy).2]
  exact lt_of_le_of_ne hxy.1 fun heq => hxy.2 (Prod.ext heq hsame)

theorem placesIn_append (name : Text) (rs rs' : List ((Nat ×ₗ Nat) × Text)) :
    placesIn name (rs ++ rs') = placesIn name rs ++ placesIn name rs' := by
  rw [placesIn, List.filter_append, List.map_append]
  rfl

/-- The number of the line that a location shows for a place. -/
def lineNumber (p : Nat ×ₗ Nat) : Int := (ofLex p).1 + 1

theorem lines_locationsOf_inLine (rules : List AccessRule) (file name : Text) (i : Nat)
    (line : Text) :
    (locationsOf name (inLine rules file (i + 1) line)).map (·.line) =
      (placesIn name ((readings rules line).map fun r => (toLex (i, r.1), r.2))).map
        lineNumber := by
  unfold inLine
  induction readings rules line with
  | nil => rfl
  | cons r rs ih =>
    rw [List.map_cons, locationsOf, List.map_append, ih, List.map_cons]
    by_cases hname : r.2 = name
    · simp [hname, placesIn, lineNumber]
    · simp [hname, placesIn]

/-- **A name has one location for each place that reads it**, in the order of the places. -/
theorem lines_locationsOf_inLines (rules : List AccessRule) (file name : Text) (i : Nat)
    (lines : List Text) :
    (locationsOf name (inLines rules file (i + 1) lines)).map (·.line) =
      (placesIn name (placedReadings rules i lines)).map lineNumber := by
  induction lines generalizing i with
  | nil => rfl
  | cons line lines ih =>
    rw [inLines, locationsOf_append, List.map_append, lines_locationsOf_inLine, ih, placedReadings,
      placesIn_append, List.map_append]

end

/-! ## The order of usages -/

/-- Whether usages list what rules read in a text in the order of the places: each variable once, in
the order of the places where each is read first, with one location for each of its places, in their
order. -/
structure InReadingOrder (rules : List AccessRule) (content : Text) (us : List EnvKeyUsage) :
    Prop where
  nodup : (names us).Nodup
  mem_names_iff : ∀ name, name ∈ names us ↔ (placesOf rules content name).Nonempty
  firsts : (names us).Pairwise fun name other => ∃ p q,
    IsLeast (placesOf rules content name) p ∧ IsLeast (placesOf rules content other) q ∧ p ≤ q
  locations : ∀ u ∈ us, ∃ places : List (Nat ×ₗ Nat), places.Pairwise (· < ·) ∧
    (∀ p, p ∈ places ↔ p ∈ placesOf rules content u.name) ∧
    u.locations.map (·.line) = places.map lineNumber
  lines : ∀ u ∈ us, (u.locations.map (·.line)).Pairwise (· ≤ ·)

theorem nodup_names_find (rules : List AccessRule) (content file : Text) :
    (names (find rules content file)).Nodup := by
  have hmerge := nodup_merge [inLines rules file 1 (Text.lines content)]
  rwa [merge_eq_mergeInto, List.flatten_singleton] at hmerge

theorem names_find (rules : List AccessRule) (content file : Text) :
    names (find rules content file) =
      ((placedReadings rules 0 (Text.lines content)).map Prod.snd).eraseDups := by
  rw [find, names_mergeInto, names_nil, List.nil_append, List.removeAll_nil, names_inLines _ _ _ 0]

theorem locations_of_mem_find {rules : List AccessRule} {content file : Text} {u : EnvKeyUsage}
    (hu : u ∈ find rules content file) : u.locations.map (·.line) =
      (placesIn u.name (placedReadings rules 0 (Text.lines content))).map lineNumber := by
  rw [eq_map_locationsOf (nodup_names_find rules content file)] at hu
  obtain ⟨name, -, rfl⟩ := List.mem_map.mp hu
  rw [locationsOf_find]
  exact lines_locationsOf_inLines rules file name 0 _

/-- **Usages are in the order of their readings.** -/
theorem inReadingOrder_find (rules : List AccessRule) (content file : Text) :
    InReadingOrder rules content (find rules content file) := by
  have hplaces : ∀ name, {p | (p, name) ∈ placedReadings rules 0 (Text.lines content)} =
      placesOf rules content name := by
    intro name
    ext p
    exact mem_placedReadings_zero
  have hsorted := fun name =>
    pairwise_placesIn (pairwise_placedReadings rules 0 (Text.lines content)) name
  refine ⟨nodup_names_find rules content file, fun name => ?_, ?_, fun u hu => ?_, fun u hu => ?_⟩
  · rw [names_find, List.mem_eraseDups, List.mem_map]
    constructor
    · rintro ⟨⟨p, _⟩, hp, rfl⟩
      exact ⟨p, mem_placedReadings_zero.mp hp⟩
    · rintro ⟨p, hp⟩
      exact ⟨(p, name), mem_placedReadings_zero.mpr hp, rfl⟩
  · rw [names_find]
    simp only [← hplaces]
    exact (inOrder_placedReadings rules 0 _).pairwise_eraseDups
  · refine ⟨_, hsorted u.name, fun p => ?_, locations_of_mem_find hu⟩
    rw [mem_placesIn, mem_placedReadings_zero]
  · rw [locations_of_mem_find hu]
    refine List.pairwise_map.mpr ((hsorted u.name).imp fun {p q} hpq => ?_)
    rw [lineNumber, lineNumber]
    rcases Prod.Lex.lt_iff.mp hpq with hlt | ⟨heq, -⟩ <;> omega

/-- **What is found depends on which rules there are, and its order on the places that read.** Rules
may stand in any order, and any of them more than once. -/
theorem find_canonical {rules rules' : List AccessRule} (h : ∀ rule, rule ∈ rules ↔ rule ∈ rules')
    (content file : Text) :
    find rules content file = find rules' content file ∧
      InReadingOrder rules content (find rules content file) := by
  refine ⟨find_congr (fun line => readings_congr fun r => ?_) content file,
    inReadingOrder_find rules content file⟩
  simp only [h]

/-- A text that reads one variable twice and another one before it. -/
def twoReads : Text := "os.getenv('B') + os.getenv('A')\nprocess.env.A".toList

/-- The known rules, and the same rules backwards and forwards. -/
theorem find_canonical_twoReads :
    let shuffled := AccessRule.registry.reverse ++ AccessRule.registry
    (∀ rule, rule ∈ AccessRule.registry ↔ rule ∈ shuffled) ∧
      find AccessRule.registry twoReads "a.py".toList = find shuffled twoReads "a.py".toList ∧
      InReadingOrder AccessRule.registry twoReads (find shuffled twoReads "a.py".toList) ∧
      names (find shuffled twoReads "a.py".toList) = ["B".toList, "A".toList] ∧
      (find shuffled twoReads "a.py".toList).map (fun u => u.locations.map (·.line)) =
        [[1], [1, 2]] := by
  intro shuffled
  have hsame : ∀ rule, rule ∈ AccessRule.registry ↔ rule ∈ shuffled := by simp [shuffled]
  obtain ⟨hfind, horder⟩ := find_canonical hsame twoReads "a.py".toList
  refine ⟨hsame, hfind, hfind ▸ horder, ?_, ?_⟩ <;> rw [← hfind] <;> decide +kernel

end EnvAudit.EnvKeyUsage
