import EnvAudit.Proofs.PatternText
import EnvAudit.Proofs.SecretSpans

/-!
# Patterns in padded lines

White space at the ends of a line changes nothing for a pattern whose matches neither start nor end
with a blank character, and which looks around for such texts only (`hits_pad`): it has the same
hits, moved by what was put in front.

A repetition inside such a pattern may well run into the padding, as that of blanks before an equals
sign. So the ways in the padded line are more than those in the line, and they are the same only
without those that end in the padding behind (`keepsWays`). A whole match never does.
-/
namespace EnvAudit

namespace CharClass

/-- Whether no blank character is in the class. -/
def rejectsBlank (cls : CharClass) : Bool := blankCodes.all fun n => !cls.accepts (Char.ofNat n)

theorem isBlank_eq_false_of_accepts {cls : CharClass} (h : cls.rejectsBlank = true) {c : Char}
    (hc : cls.accepts c = true) : isBlank c = false := by
  refine Bool.eq_false_iff.mpr fun hb => ?_
  have hn := List.all_eq_true.mp h _ (toNat_mem_blankCodes hb)
  rw [Char.ofNat_toNat, hc] at hn
  cases hn

end CharClass

namespace Pattern

/-! ## Ends of a match -/

/-- Whether every match that takes something starts with a character that is not blank. -/
def startsNonBlank : Pattern → Bool
  | .one cls => cls.rejectsBlank
  | .seq p q => startsNonBlank p && (decide (0 < (p.width (0, none)).1) || startsNonBlank q)
  | .alt p q => startsNonBlank p && startsNonBlank q
  | .many _ _ _ p | .group p => startsNonBlank p
  | .empty | .anchor _ | .ahead .. | .behind .. => true
  | .again _ | .atomic _ | .ifGroup .. => false

/-- Whether every match that takes something ends with a character that is not blank. -/
def endsNonBlank : Pattern → Bool
  | .one cls => cls.rejectsBlank
  | .seq p q => endsNonBlank q && (decide (0 < (q.width (0, none)).1) || endsNonBlank p)
  | .alt p q => endsNonBlank p && endsNonBlank q
  | .many _ _ _ p | .group p => endsNonBlank p
  | .empty | .anchor _ | .ahead .. | .behind .. => true
  | .again _ | .atomic _ | .ifGroup .. => false

/-- Whether every match takes something and has a character that is not blank at both ends. -/
def isSolid (p : Pattern) : Bool :=
  decide (0 < (p.width (0, none)).1) && startsNonBlank p && endsNonBlank p

/-- Whether the pattern looks around for texts only that end where the padding of a line starts. -/
def looksInside : Pattern → Bool
  | .empty | .one _ => true
  | .seq p q | .alt p q => looksInside p && looksInside q
  | .many _ _ _ p | .group p => looksInside p
  | .ahead _ p => looksInside p && endsNonBlank p
  | .behind _ _ p => looksInside p && isSolid p
  | .anchor _ | .again _ | .atomic _ | .ifGroup .. => false

section

variable {t : Text} {p : Pattern}

theorem first_of_matches (hp : p.startsNonBlank = true) {i j : Nat} (h : p.Matches t i j)
    (hij : i < j) : ∃ c, t[i]? = some c ∧ isBlank c = false := by
  induction p generalizing i j with
  | empty => exact absurd (show i = j from h) (by omega)
  | anchor _ | ahead _ _ _ | behind _ _ _ _ => exact absurd h.1 (by omega)
  | one cls =>
    obtain ⟨c, hc, ha, -⟩ := h
    exact ⟨c, hc, CharClass.isBlank_eq_false_of_accepts hp ha⟩
  | seq p q ihp ihq =>
    simp only [startsNonBlank, Bool.and_eq_true, Bool.or_eq_true, decide_eq_true_eq] at hp
    obtain ⟨k, hk, hj⟩ := h
    by_cases hik : i < k
    · exact ihp hp.1 hk hik
    · obtain rfl : i = k := Nat.le_antisymm (le_of_matches hk) (Nat.le_of_not_lt hik)
      have hw := (width_of_matches hk (0, none)).1
      exact ihq (hp.2.resolve_left (by omega)) hj hij
  | alt p q ihp ihq =>
    simp only [startsNonBlank, Bool.and_eq_true] at hp
    exact h.elim (fun h => ihp hp.1 h hij) fun h => ihq hp.2 h hij
  | many lo hi greedy p ih =>
    obtain ⟨n, -, -, hr⟩ := h
    induction n generalizing i with
    | zero => exact absurd (show i = j from hr) (by omega)
    | succ n ihn =>
      obtain ⟨k, hk, hr⟩ := hr
      by_cases hik : i < k
      · exact ih hp hk hik
      · obtain rfl : i = k := Nat.le_antisymm (le_of_matches hk) (Nat.le_of_not_lt hik)
        exact ihn hij hr
  | group p ih => exact ih hp h hij
  | again _ | atomic _ _ | ifGroup _ _ _ _ => exact h.elim

theorem last_of_matches (hp : p.endsNonBlank = true) {i j : Nat} (h : p.Matches t i j)
    (hij : i < j) : ∃ k c, j = k + 1 ∧ t[k]? = some c ∧ isBlank c = false := by
  induction p generalizing i j with
  | empty => exact absurd (show i = j from h) (by omega)
  | anchor _ | ahead _ _ _ | behind _ _ _ _ => exact absurd h.1 (by omega)
  | one cls =>
    obtain ⟨c, hc, ha, hj⟩ := h
    exact ⟨i, c, hj, hc, CharClass.isBlank_eq_false_of_accepts hp ha⟩
  | seq p q ihp ihq =>
    simp only [endsNonBlank, Bool.and_eq_true, Bool.or_eq_true, decide_eq_true_eq] at hp
    obtain ⟨k, hk, hj⟩ := h
    by_cases hkj : k < j
    · exact ihq hp.1 hj hkj
    · obtain rfl : k = j := Nat.le_antisymm (le_of_matches hj) (Nat.le_of_not_lt hkj)
      have hw := (width_of_matches hj (0, none)).1
      exact ihp (hp.2.resolve_left (by omega)) hk hij
  | alt p q ihp ihq =>
    simp only [endsNonBlank, Bool.and_eq_true] at hp
    exact h.elim (fun h => ihp hp.1 h hij) fun h => ihq hp.2 h hij
  | many lo hi greedy p ih =>
    obtain ⟨n, -, -, hr⟩ := h
    induction n generalizing i with
    | zero => exact absurd (show i = j from hr) (by omega)
    | succ n ihn =>
      obtain ⟨k, hk, hr⟩ := hr
      by_cases hkj : k < j
      · exact ihn hkj hr
      · have hle : k ≤ j := by
          have := hr.le (a := 0) fun x y hxy => by simpa using le_of_matches hxy
          omega
        obtain rfl : k = j := Nat.le_antisymm hle (Nat.le_of_not_lt hkj)
        exact ih hp hk hij
  | group p ih => exact ih hp h hij
  | again _ | atomic _ _ | ifGroup _ _ _ _ => exact h.elim

end

end Pattern

open Pattern

/-! ## Padding -/

namespace Place

/-- The place in a line with more text before and behind. -/
def pad (front back : Text) (s : Place) : Place :=
  { s with before := s.before ++ front.reverse, after := s.after ++ back }

/-- Whether at least so much stands behind a place as is behind the line. -/
def isInside (back : Text) (s : Place) : Bool := decide (back.length ≤ s.after.length)

section

variable {front back line : Text} {s e : Place} {i : Nat}

@[simp] theorem isInside_pad (front back : Text) (s : Place) :
    (s.pad front back).isInside back = true := by
  simp [isInside, pad]

theorem length_after_pad : (s.pad front back).after.length = s.after.length + back.length :=
  List.length_append

theorem textTo_pad : (s.pad front back).textTo (e.pad front back) = s.textTo e := by
  have hlen : (s.pad front back).after.length - (e.pad front back).after.length =
      s.after.length - e.after.length := by
    rw [length_after_pad, length_after_pad]
    omega
  rw [textTo, hlen]
  exact List.take_append_of_le_length (Nat.sub_le ..)

theorem take_padded (hi : i ≤ line.length) :
    (front ++ line ++ back).take (front.length + i) = front ++ line.take i := by
  rw [List.append_assoc, List.take_length_add_append, List.take_append_of_le_length hi]

theorem drop_padded (hi : i ≤ line.length) :
    (front ++ line ++ back).drop (front.length + i) = line.drop i ++ back := by
  rw [List.append_assoc, List.drop_length_add_append, List.drop_append_of_le_length hi]

theorem pad_atColumn (hi : i ≤ line.length) :
    (atColumn line i).pad front back = atColumn (front ++ line ++ back) (front.length + i) := by
  rw [atColumn, atColumn, take_padded hi, drop_padded hi, List.reverse_append]
  rfl

theorem IsAt.pad (hs : s.IsAt line i) (front back : Text) :
    (s.pad front back).IsAt (front ++ line ++ back) (front.length + i) := by
  have hle := hs.le
  refine ⟨?_, ?_, ?_⟩
  · simp only [List.length_append]
    omega
  · rw [take_padded hle, List.reverse_append, ← hs.before]
    rfl
  · rw [drop_padded hle, ← hs.after]
    rfl

/-- Every place is a place of a line. -/
theorem isAt_column (s : Place) : s.IsAt (s.before.reverse ++ s.after) s.column := by
  refine ⟨?_, ?_, ?_⟩
  · simp [column]
  · rw [column, ← List.length_reverse, List.take_left, List.reverse_reverse]
  · rw [column, ← List.length_reverse, List.drop_left]

/-- A place of a padded line is inside up to the end of the line. -/
theorem IsAt.isInside_iff (hs : s.IsAt (front ++ line ++ back) i) :
    s.isInside back = true ↔ i ≤ front.length + line.length := by
  have hle := hs.le
  rw [isInside, decide_eq_true_eq, hs.length_after]
  simp only [List.length_append] at hle ⊢
  omega

theorem back?_pad {n : Nat} (hn : n ≤ s.before.length) :
    (s.pad front back).back? n = (s.back? n).map (pad front back) := by
  induction n generalizing s with
  | zero => rfl
  | succ n ih =>
    obtain ⟨before, after, captured⟩ := s
    cases before with
    | nil => simp at hn
    | cons c before =>
      have hstep := ih (s := ⟨before, c :: after, captured⟩) (Nat.le_of_succ_le_succ hn)
      simpa [back?, pad, Place.back] using hstep

end

end Place

/-! ## Matches in a padded line -/

section

variable {front back line : Text} {p : Pattern}

/-- A match that ends with a character that is not blank ends in the line. -/
theorem stop_le_of_matches (hback : ∀ c ∈ back, isBlank c = true) (hp : p.endsNonBlank = true)
    {i j : Nat} (h : p.Matches (front ++ line ++ back) i j) (hij : i < j) :
    j ≤ front.length + line.length := by
  obtain ⟨k, c, rfl, hc, hblank⟩ := last_of_matches hp h hij
  refine Nat.le_of_not_lt fun hlt => ?_
  rw [List.getElem?_append_right (by rw [List.length_append]; omega)] at hc
  rw [hback c (List.mem_of_getElem? hc)] at hblank
  cases hblank

/-- A solid match lies in the line. -/
theorem inside_of_matches (hfront : ∀ c ∈ front, isBlank c = true)
    (hback : ∀ c ∈ back, isBlank c = true) (hp : p.isSolid = true) {i j : Nat}
    (h : p.Matches (front ++ line ++ back) i j) :
    front.length ≤ i ∧ i < j ∧ j ≤ front.length + line.length := by
  simp only [isSolid, Bool.and_eq_true, decide_eq_true_eq] at hp
  have hij := lt_of_matches hp.1.1 h
  refine ⟨Nat.le_of_not_lt fun hlt => ?_, hij, stop_le_of_matches hback hp.2 h hij⟩
  obtain ⟨c, hc, hblank⟩ := first_of_matches hp.1.2 h hij
  rw [List.append_assoc, List.getElem?_append_left hlt] at hc
  rw [hfront c (List.mem_of_getElem? hc)] at hblank
  cases hblank

end

/-! ## Ways that go on -/

/-- Whether no way leads back. -/
def GoesOn (w : Place → List Place) : Prop :=
  ∀ s, ∀ e ∈ w s, e.after.length ≤ s.after.length

theorem goesOn_waysTimes {w : Place → List Place} (hw : GoesOn w) (n : Nat) :
    GoesOn (waysTimes w n) := by
  induction n with
  | zero =>
    intro s e he
    obtain rfl := List.mem_singleton.mp he
    exact Nat.le_refl _
  | succ n ih =>
    intro s e he
    obtain ⟨m, hm, he⟩ := List.mem_flatMap.mp he
    exact Nat.le_trans (ih m e he) (hw s m hm)

theorem goesOn_waysMore {w : Place → List Place} (hw : GoesOn w) (greedy : Bool) (n : Nat) :
    GoesOn (waysMore w greedy n) := by
  induction n with
  | zero =>
    intro s e he
    obtain rfl := List.mem_singleton.mp he
    exact Nat.le_refl _
  | succ n ih =>
    intro s e he
    rcases Reads.mem_waysMore_succ.mp he with rfl | ⟨m, hm, he⟩
    · exact Nat.le_refl _
    split at he
    · exact Nat.le_trans (ih m e he) (hw s m hm)
    · obtain rfl := List.mem_singleton.mp he
      exact hw s e hm

/-- The ways of a regular pattern go on. -/
theorem goesOn_ways {p : Pattern} (hp : p.isRegular = true) : GoesOn p.ways := by
  intro s e he
  obtain ⟨j, hj, hm⟩ := (reads_ways _ hp).sound s.isAt_column he
  have hle := le_of_matches hm
  rw [s.isAt_column.length_after, hj.length_after]
  omega

/-! ## Ways in a padded line -/

/-- Whether the ways in a padded line that end inside are the ways in the line. -/
def KeepsWays (front back : Text) (w : Place → List Place) : Prop :=
  ∀ s : Place, (w (s.pad front back)).filter (·.isInside back) = (w s).map (·.pad front back)

section

variable {front back : Text}

/-- What is reached from outside is outside, so only ways that are inside need to be followed. -/
theorem filter_flatMap_pad {l l' : List Place} {v v' : Place → List Place}
    (hl : l'.filter (·.isInside back) = l.map (·.pad front back))
    (hgoes : GoesOn v')
    (hv : ∀ m ∈ l, (v' (m.pad front back)).filter (·.isInside back) =
      (v m).map (·.pad front back)) :
    (l'.flatMap v').filter (·.isInside back) = (l.flatMap v).map (·.pad front back) := by
  have hdrop : (l'.flatMap v').filter (·.isInside back) =
      (l'.filter (·.isInside back)).flatMap fun m => (v' m).filter (·.isInside back) := by
    clear hl
    induction l' with
    | nil => rfl
    | cons m l' ih =>
      rw [List.flatMap_cons, List.filter_append, ih]
      by_cases hm : m.isInside back = true
      · rw [List.filter_cons_of_pos hm, List.flatMap_cons]
      · have hnil : (v' m).filter (·.isInside back) = [] := by
          refine List.filter_eq_nil_iff.mpr fun e he hin => hm ?_
          have hle := hgoes m e he
          simp only [Place.isInside, decide_eq_true_eq] at hin ⊢
          omega
        rw [List.filter_cons_of_neg hm, hnil, List.nil_append]
  rw [hdrop, hl, List.flatMap_map, List.map_flatMap]
  exact List.flatMap_congr hv

theorem keepsWays_waysTimes {w : Place → List Place} (hgoes : GoesOn w)
    (hw : KeepsWays front back w) (n : Nat) : KeepsWays front back (waysTimes w n) := by
  induction n with
  | zero =>
    intro s
    simp [waysTimes]
  | succ n ih =>
    intro s
    exact filter_flatMap_pad (hw s) (goesOn_waysTimes hgoes n) fun m _ => ih m

/-- A repetition without bound has fuel for every place of its line, padded or not. -/
theorem filter_waysMore_pad {w : Place → List Place} (hgoes : GoesOn w)
    (hw : KeepsWays front back w) (greedy : Bool) {n n' : Nat} {s : Place}
    (hn : n = n' ∨ s.after.length < n ∧ s.after.length < n') :
    (waysMore w greedy n' (s.pad front back)).filter (·.isInside back) =
      (waysMore w greedy n s).map (·.pad front back) := by
  induction n generalizing n' s with
  | zero =>
    obtain rfl : n' = 0 := by omega
    simp [waysMore]
  | succ n ih =>
    obtain ⟨n', rfl⟩ : ∃ m, n' = m + 1 := ⟨n' - 1, by omega⟩
    have hmore : ((w (s.pad front back)).flatMap fun e =>
        if e.after.length < (s.pad front back).after.length then waysMore w greedy n' e
        else [e]).filter (·.isInside back) =
        ((w s).flatMap fun e =>
          if e.after.length < s.after.length then waysMore w greedy n e else [e]).map
            (·.pad front back) := by
      refine filter_flatMap_pad (hw s) (fun m e he => ?_) fun m _ => ?_
      · split at he
        · exact goesOn_waysMore hgoes greedy n' m e he
        · obtain rfl := List.mem_singleton.mp he
          exact Nat.le_refl _
      · have hlt : (m.pad front back).after.length < (s.pad front back).after.length ↔
            m.after.length < s.after.length := by
          rw [Place.length_after_pad, Place.length_after_pad]
          omega
        by_cases hm : m.after.length < s.after.length
        · simp only [hlt, hm, if_true]
          exact ih (by omega)
        · simp [hlt, hm]
    simp only [waysMore]
    cases greedy with
    | true => simp [hmore]
    | false => simp [hmore]

/-- Where looking around leads, by what it finds. -/
def look (negated : Bool) (s : Place) : Option Place → List Place
  | some e => if negated then [] else [{ s with captured := e.captured }]
  | none => if negated then [s] else []

theorem ways_ahead (negated : Bool) (p : Pattern) (s : Place) :
    ways (.ahead negated p) s = look negated s (p.ways s).head? := rfl

theorem ways_behind (negated : Bool) (n : Nat) (p : Pattern) (s : Place) :
    ways (.behind negated n p) s =
      look negated s ((s.back? n).bind fun b => (p.ways b).head?) := rfl

theorem look_pad (negated : Bool) (s : Place) (found : Option Place) :
    (look negated (s.pad front back) (found.map (·.pad front back))).filter (·.isInside back) =
      (look negated s found).map (·.pad front back) := by
  cases found with
  | none => cases negated <;> simp [look]
  | some e =>
    have hinside : { s.pad front back with captured := e.captured }.isInside back = true :=
      Place.isInside_pad front back s
    cases negated
    · exact List.filter_cons_of_pos hinside
    · rfl

/-- All ways of a pattern stay inside that cannot end in the padding. -/
theorem ways_pad_of_endsNonBlank {p : Pattern} (hr : p.isRegular = true)
    (hp : p.endsNonBlank = true) (hback : ∀ c ∈ back, isBlank c = true)
    (hw : KeepsWays front back p.ways) (s : Place) :
    p.ways (s.pad front back) = (p.ways s).map (·.pad front back) := by
  rw [← hw s, eq_comm, List.filter_eq_self]
  intro e he
  have hs := s.isAt_column.pad front back
  obtain ⟨j, hj, hm⟩ := (reads_ways _ hr).sound hs he
  rw [hj.isInside_iff]
  by_cases hlt : front.length + s.column < j
  · exact stop_le_of_matches hback hp hm hlt
  · have hle := s.isAt_column.le
    omega

/-- Nothing solid starts in the padding in front. -/
theorem ways_eq_nil_of_front {p : Pattern} (hr : p.isRegular = true) (hp : p.isSolid = true)
    {line : Text} (hfront : ∀ c ∈ front, isBlank c = true) (hback : ∀ c ∈ back, isBlank c = true)
    {b : Place} {i : Nat} (hb : b.IsAt (front ++ line ++ back) i) (hi : i < front.length) :
    p.ways b = [] := by
  rw [(reads_ways _ hr).nil_iff hb]
  rintro ⟨j, hm⟩
  have := (inside_of_matches hfront hback hp hm).1
  omega

/-- What is looked for behind a place is not in the padding in front. -/
theorem behind_pad {p : Pattern} (hr : p.isRegular = true) (hp : p.isSolid = true)
    (hfront : ∀ c ∈ front, isBlank c = true) (hback : ∀ c ∈ back, isBlank c = true)
    (hw : KeepsWays front back p.ways) (n : Nat) (s : Place) :
    (((s.pad front back).back? n).bind fun b => (p.ways b).head?) =
      ((s.back? n).bind fun b => (p.ways b).head?).map (·.pad front back) := by
  have hends : p.endsNonBlank = true := (Bool.and_eq_true_iff.mp hp).2
  by_cases hn : n ≤ s.before.length
  · rw [Place.back?_pad hn, Option.map_bind, Option.bind_map]
    refine congrArg _ (funext fun b => ?_)
    rw [Function.comp_apply, Function.comp_apply,
      ways_pad_of_endsNonBlank hr hends hback hw, List.head?_map]
  · have hs := s.isAt_column
    have hpad := hs.pad front back
    rw [hs.back?_eq_none (Nat.lt_of_not_le hn), Option.bind_none, Option.map_none]
    by_cases hfar : n ≤ front.length + s.column
    · obtain ⟨b, hb, hbi⟩ := (show (s.pad front back).IsAt _ (front.length + s.column - n + n) by
        rwa [Nat.sub_add_cancel hfar]).back?_eq_some
      have hcol : s.column = s.before.length := rfl
      rw [hb, Option.bind_some, ways_eq_nil_of_front hr hp hfront hback hbi (by omega)]
      rfl
    · rw [hpad.back?_eq_none (Nat.lt_of_not_le hfar)]
      rfl

/-- **The ways in a padded line that end inside are the ways in the line.** -/
theorem keepsWays {p : Pattern} (hr : p.isRegular = true) (hp : p.looksInside = true)
    (hfront : ∀ c ∈ front, isBlank c = true) (hback : ∀ c ∈ back, isBlank c = true) :
    KeepsWays front back p.ways := by
  induction p with
  | empty =>
    intro s
    simp [ways]
  | one cls =>
    intro s
    obtain ⟨before, after, captured⟩ := s
    cases after with
    | nil =>
      rw [ways_one_nil, List.map_nil, List.filter_eq_nil_iff]
      intro e he hin
      cases back with
      | nil => simp [Place.pad, ways] at he
      | cons c back =>
        simp only [Place.pad, List.nil_append, ways_one_cons] at he
        split at he
        · obtain rfl := List.mem_singleton.mp he
          simp only [Place.isInside, List.length_cons, decide_eq_true_eq] at hin
          omega
        · cases he
    | cons c after =>
      by_cases hc : cls.accepts c = true
      · simp [Place.pad, ways_one_cons, hc, Place.isInside]
      · simp [Place.pad, ways_one_cons, hc]
  | seq p q ihp ihq =>
    intro s
    simp only [isRegular, looksInside, Bool.and_eq_true] at hr hp
    exact filter_flatMap_pad (ihp hr.1 hp.1 s) (goesOn_ways hr.2) fun m _ => ihq hr.2 hp.2 m
  | alt p q ihp ihq =>
    intro s
    simp only [isRegular, looksInside, Bool.and_eq_true] at hr hp
    rw [ways, ways, List.filter_append, ihp hr.1 hp.1, ihq hr.2 hp.2, List.map_append]
  | many lo hi greedy p ih =>
    intro s
    simp only [isRegular, Bool.and_eq_true] at hr
    have hgoes := goesOn_ways hr.2
    have hw := ih hr.2 hp
    rw [ways_many, ways_many]
    refine filter_flatMap_pad (keepsWays_waysTimes hgoes hw lo s)
      (fun m => goesOn_waysMore hgoes greedy _ m) fun m _ => ?_
    refine filter_waysMore_pad hgoes hw greedy ?_
    cases hi with
    | some b => exact .inl rfl
    | none =>
      right
      simp only [Option.map_none, Option.getD_none, Place.length_after_pad]
      omega
  | group p ih =>
    intro s
    rw [ways, ways, List.filter_map, List.map_map]
    have hw := ih hr hp s
    have hinside : ((·.isInside back) ∘ fun e : Place =>
        { e with captured := some ((s.pad front back).textTo e) }) = (·.isInside back) := rfl
    rw [hinside, hw, List.map_map]
    refine List.map_congr_left fun e _ => ?_
    simp only [Function.comp_apply, Place.textTo_pad]
    rfl
  | ahead negated p ih =>
    intro s
    simp only [isRegular, looksInside, Bool.and_eq_true] at hr hp
    rw [ways_ahead, ways_ahead, ways_pad_of_endsNonBlank hr hp.2 hback (ih hr hp.1),
      List.head?_map]
    exact look_pad negated s _
  | behind negated n p ih =>
    intro s
    simp only [isRegular, looksInside, Bool.and_eq_true] at hr hp
    rw [ways_behind, ways_behind, behind_pad hr.2 hp.2 hfront hback (ih hr.2 hp.1)]
    exact look_pad negated s _
  | anchor _ | again _ | atomic _ _ | ifGroup _ _ _ _ => simp [looksInside] at hp

end

/-! ## Hits in a padded line -/

/-- Whether white space at the ends of a line changes nothing for the pattern. -/
structure Pattern.IgnoresPadding (p : Pattern) : Prop where
  regular : p.isRegular = true
  solid : p.isSolid = true
  looks : p.looksInside = true

theorem Pattern.IgnoresPadding.width_pos {p : Pattern} (hp : p.IgnoresPadding) :
    0 < (p.width (0, none)).1 := by
  have h := hp.solid
  simp only [isSolid, Bool.and_eq_true, decide_eq_true_eq] at h
  exact h.1.1

/-- The hit in a line with more text before and behind. -/
def Hit.pad (front back : Text) (h : Hit) : Hit := ⟨h.start.pad front back, h.stop.pad front back⟩

theorem Hit.text_pad (front back : Text) (h : Hit) : (h.pad front back).text = h.text :=
  Place.textTo_pad

theorem Hit.column_pad (front back : Text) (h : Hit) :
    (h.pad front back).column = front.length + h.column := by
  simp [Hit.column, Hit.pad, Place.column, Place.pad, Nat.add_comm]

theorem find?_eq_none {p : Pattern} (hp : p.isRegular = true) {t : Text} {i : Nat}
    (hi : i ≤ t.length) (hno : ∀ k j, i ≤ k → ¬ p.Matches t k j) :
    p.find? false (t.take i).reverse (t.drop i) = none := by
  rcases find?_cases hp hi with ⟨hnone, -⟩ | ⟨h, -, hin, hle, -⟩
  · exact hnone
  · exact absurd hin.isMatch (hno _ _ hle)

/-- A search passes over the columns where no match starts. -/
theorem find?_skip {p : Pattern} (hp : p.isRegular = true) {t : Text} {i d : Nat}
    (hd : i + d ≤ t.length) (hno : ∀ k j, i ≤ k → k < i + d → ¬ p.Matches t k j) :
    p.find? false (t.take i).reverse (t.drop i) =
      p.find? false (t.take (i + d)).reverse (t.drop (i + d)) := by
  induction d generalizing i with
  | zero => rfl
  | succ d ih =>
    have hi : i < t.length := by omega
    have hrun : p.run (.atColumn t i) some = none := by
      rw [(run_some_iff hp (Place.isAt_atColumn (Nat.le_of_lt hi))).1]
      rintro ⟨j, hm⟩
      exact hno i j (Nat.le_refl i) (by omega) hm
    have hrest := ih (i := i + 1) (by omega) fun k j hk hkd => hno k j (by omega) (by omega)
    rw [find?_atColumn p (Nat.le_of_lt hi), hrun]
    simp only [if_pos hi]
    rw [hrest, Nat.add_assoc, Nat.add_comm 1 d]

section

variable {p : Pattern} {front back line : Text}

theorem run_pad (hp : p.IgnoresPadding) (hfront : ∀ c ∈ front, isBlank c = true)
    (hback : ∀ c ∈ back, isBlank c = true) (s : Place) :
    p.run (s.pad front back) some = (p.run s some).map (·.pad front back) := by
  have hends : p.endsNonBlank = true := (Bool.and_eq_true_iff.mp hp.solid).2
  have hbounds := hasOrderedBounds_of_isRegular hp.regular
  rw [run_eq_findSome?_ways p hbounds, run_eq_findSome?_ways p hbounds, findSome?_some_eq_head?,
    findSome?_some_eq_head?, ways_pad_of_endsNonBlank hp.regular hends hback
      (keepsWays hp.regular hp.looks hfront hback), List.head?_map]

/-- A search from a column of the line finds what it finds without the padding. -/
theorem find?_pad (hp : p.IgnoresPadding) (hfront : ∀ c ∈ front, isBlank c = true)
    (hback : ∀ c ∈ back, isBlank c = true) {i : Nat} (hi : i ≤ line.length) :
    p.find? false ((front ++ line ++ back).take (front.length + i)).reverse
        ((front ++ line ++ back).drop (front.length + i)) =
      (p.find? false (line.take i).reverse (line.drop i)).map (Hit.pad front back) := by
  have hlen : (front ++ line ++ back).length = front.length + line.length + back.length := by
    rw [List.length_append, List.length_append]
  by_cases hlt : i < line.length
  · have hrun := run_pad hp hfront hback (.atColumn line i)
    rw [Place.pad_atColumn hi] at hrun
    rw [find?_atColumn p hi, find?_atColumn p (by omega), hrun]
    cases p.run (.atColumn line i) some with
    | some e => simp [Hit.pad, Place.pad_atColumn hi]
    | none =>
      simp only [Option.map_none, if_pos hlt, hlen]
      rw [if_pos (by omega)]
      exact find?_pad hp hfront hback (i := i + 1) hlt
  · -- neither behind the line nor in the padding there does a match start
    rw [find?_eq_none hp.regular hi, find?_eq_none hp.regular (by omega)]
    · rfl
    · intro k j hk hm
      have := inside_of_matches hfront hback hp.solid hm
      omega
    · intro k j hk hm
      have := lt_length_of_matches hm (lt_of_matches hp.width_pos hm)
      omega
termination_by line.length - i

/-- Hits are found one behind the other, in the padded line as in the line. -/
theorem hitsFrom_pad (hp : p.IgnoresPadding) (hfront : ∀ c ∈ front, isBlank c = true)
    (hback : ∀ c ∈ back, isBlank c = true) {fuel fuel' i : Nat} (hi : i ≤ line.length)
    (hf : line.length - i < fuel) (hf' : line.length - i < fuel') :
    p.hitsFrom fuel' false (.atColumn (front ++ line ++ back) (front.length + i)) =
      (p.hitsFrom fuel false (.atColumn line i)).map (Hit.pad front back) := by
  induction fuel generalizing fuel' i with
  | zero => omega
  | succ fuel ih =>
    obtain ⟨fuel', rfl⟩ : ∃ n, fuel' = n + 1 := ⟨fuel' - 1, by omega⟩
    have hfind := find?_pad hp hfront hback hi
    simp only [hitsFrom, Place.atColumn, hfind]
    rcases find?_cases hp.regular hi with ⟨hnone, -⟩ | ⟨h, hsome, hin, hle, -⟩
    · rw [hnone]
      rfl
    · have hlt := lt_of_matches hp.width_pos hin.isMatch
      have hstop := hin.stopAt.le
      have hempty := hin.isEmpty_eq_false hp.width_pos
      have hempty' : (h.pad front back).isEmpty = false := by
        rw [Hit.isEmpty, Hit.text_pad]
        exact hempty
      have hpad := hin.stopAt.pad front back
      have hrest := @ih fuel' h.span.stop hstop (by omega) (by omega)
      simp only [hsome, Option.map_some, hempty, hempty', List.map_cons]
      simp only [Place.atColumn] at hrest
      rw [hin.stopAt.before, hin.stopAt.after, ← hrest, ← hpad.before, ← hpad.after]
      rfl

/-- **In a padded line a pattern has the hits that it has in the line.** -/
theorem hits_pad (hp : p.IgnoresPadding) (hfront : ∀ c ∈ front, isBlank c = true)
    (hback : ∀ c ∈ back, isBlank c = true) (line : Text) :
    p.hits (front ++ line ++ back) = (p.hits line).map (Hit.pad front back) := by
  have hskip := find?_skip hp.regular (t := front ++ line ++ back) (i := 0) (d := front.length)
    (by simp) fun k j _ hk hm => by
      have := (inside_of_matches hfront hback hp.solid hm).1
      omega
  have hstart : p.hits (front ++ line ++ back) =
      p.hitsFrom (2 * (front ++ line ++ back).length + 2) false
        (.atColumn (front ++ line ++ back) (front.length + 0)) := by
    rw [Nat.zero_add] at hskip
    simp only [hits, hitsFrom, Place.start, Place.atColumn, Nat.add_zero]
    simp only [List.take_zero, List.drop_zero, List.reverse_nil] at hskip
    rw [hskip]
  rw [hstart, hits]
  refine hitsFrom_pad hp hfront hback (Nat.zero_le _) (by omega) ?_
  simp only [List.length_append]
  omega

end

end EnvAudit
