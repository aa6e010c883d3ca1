import EnvAudit.Pattern.Reader
import EnvAudit.Proofs.PatternWays

/-!
# The language of a pattern

`Pattern.Matches` says between which columns of a line a pattern matches, without places,
continuations, preferences or an order of trial. `reads_ways` says that the ways of a regular
pattern lead exactly to the columns where its matches end, so that a search finds a match wherever
there is one (`run_some_iff`) and never anything else.

A pattern is regular (`isRegular`) if it reads the line alone: it does not look at what its group
captured and does not commit to a preferred match, every body that it repeats takes at least one
character, and what it looks for behind a place has a fixed width.
-/
namespace EnvAudit

/-- `n` steps of a relation from one column to another. -/
def Repeats (R : Nat → Nat → Prop) : Nat → Nat → Nat → Prop
  | 0, i, j => i = j
  | n + 1, i, j => ∃ k, R i k ∧ Repeats R n k j

theorem repeats_add {R : Nat → Nat → Prop} {m n i j : Nat} :
    Repeats R (m + n) i j ↔ ∃ k, Repeats R m i k ∧ Repeats R n k j := by
  induction m generalizing i with
  | zero => simp [Repeats]
  | succ m ih =>
    rw [Nat.add_right_comm]
    simp only [Repeats, ih]
    constructor
    · rintro ⟨l, hl, k, hk, hj⟩
      exact ⟨k, ⟨l, hl, hk⟩, hj⟩
    · rintro ⟨k, ⟨l, hl, hk⟩, hj⟩
      exact ⟨l, hl, k, hk, hj⟩

/-- Steps of at least `a` columns add up. -/
theorem Repeats.le {R : Nat → Nat → Prop} {a : Nat} (hR : ∀ i j, R i j → i + a ≤ j) {n i j : Nat}
    (h : Repeats R n i j) : i + a * n ≤ j := by
  induction n generalizing i with
  | zero => simpa [Repeats] using Nat.le_of_eq h
  | succ n ih =>
    obtain ⟨k, hk, hj⟩ := h
    have h1 := hR i k hk
    have h2 := ih hj
    rw [Nat.mul_succ]
    omega

/-- Steps of at most `b` columns add up. -/
theorem Repeats.ge {R : Nat → Nat → Prop} {b : Nat} (hR : ∀ i j, R i j → j ≤ i + b) {n i j : Nat}
    (h : Repeats R n i j) : j ≤ i + b * n := by
  induction n generalizing i with
  | zero => simpa [Repeats] using Nat.le_of_eq h.symm
  | succ n ih =>
    obtain ⟨k, hk, hj⟩ := h
    have h1 := hR i k hk
    have h2 := ih hj
    rw [Nat.mul_succ]
    omega

namespace Place

/-- The place at a column of a line, with nothing captured. -/
def atColumn (t : Text) (i : Nat) : Place := { before := (t.take i).reverse, after := t.drop i }

/-- Whether a place is at a column of a line, whatever was captured. -/
structure IsAt (t : Text) (s : Place) (i : Nat) : Prop where
  le : i ≤ t.length
  before : s.before = (t.take i).reverse
  after : s.after = t.drop i

end Place

namespace Pattern

/-! ## Matches -/

/-- Whether the pattern matches a line from one column to another. Look-around reads the whole
line. What the group captured is no matter of columns: a pattern that asks for it, or that commits
to its preferred match, matches nothing here. -/
def Matches (t : Text) : Pattern → Nat → Nat → Prop
  | .empty, i, j => i = j
  | .one cls, i, j => ∃ c, t[i]? = some c ∧ cls.accepts c = true ∧ j = i + 1
  | .seq p q, i, j => ∃ k, Matches t p i k ∧ Matches t q k j
  | .alt p q, i, j => Matches t p i j ∨ Matches t q i j
  | .many lo hi _ p, i, j =>
    ∃ n, lo ≤ n ∧ (∀ m ∈ hi, n ≤ m) ∧ Repeats (fun a b => Matches t p a b) n i j
  | .group p, i, j => Matches t p i j
  | .anchor a, i, j => i = j ∧ a.holds (Place.atColumn t i) = true
  | .ahead negated p, i, j => i = j ∧ ((∃ k, Matches t p i k) ↔ negated = false)
  | .behind negated _ p, i, j => i = j ∧ ((∃ k, Matches t p k i) ↔ negated = false)
  | .again _, _, _ | .atomic _, _, _ | .ifGroup .., _, _ => False

/-- Whether the pattern reads the line alone and makes progress wherever it repeats. -/
def isRegular : Pattern → Bool
  | .empty | .one _ | .anchor _ => true
  | .seq p q | .alt p q => isRegular p && isRegular q
  | .many lo hi _ p => hi.all (lo ≤ ·) && decide (0 < (p.width (0, none)).1) && isRegular p
  | .group p | .ahead _ p => isRegular p
  | .behind _ width p => p.width (0, none) == (width, some width) && isRegular p
  | .again _ | .atomic _ | .ifGroup .. => false

theorem hasOrderedBounds_of_isRegular {p : Pattern} (hp : p.isRegular = true) :
    p.hasOrderedBounds = true := by
  induction p <;> simp_all [isRegular, hasOrderedBounds]

/-- A match has at least the least width of the pattern and at most the greatest. -/
theorem width_of_matches {t : Text} {p : Pattern} {i j : Nat} (h : p.Matches t i j)
    (w : Nat × Option Nat) :
    i + (p.width w).1 ≤ j ∧ ∀ m, (p.width w).2 = some m → j ≤ i + m := by
  induction p generalizing i j with
  | empty | anchor _ | ahead _ _ _ | behind _ _ _ _ => simp_all [Matches, width]
  | one cls =>
    obtain ⟨c, -, -, rfl⟩ := h
    simp [width]
  | seq p q ihp ihq =>
    obtain ⟨k, hp, hq⟩ := h
    obtain ⟨hp1, hp2⟩ := ihp hp
    obtain ⟨hq1, hq2⟩ := ihq hq
    refine ⟨by simp only [width]; omega, fun m hm => ?_⟩
    simp only [width, Option.bind_eq_bind, Option.bind_eq_some_iff, Option.pure_def,
      Option.some.injEq] at hm
    obtain ⟨a, ha, b, hb, rfl⟩ := hm
    have := hp2 a ha
    have := hq2 b hb
    omega
  | alt p q ihp ihq =>
    have hm : ∀ m, (width w (p.alt q)).2 = some m →
        ∃ a b, (p.width w).2 = some a ∧ (q.width w).2 = some b ∧ m = max a b := by
      intro m hm
      simp only [width, Option.bind_eq_bind, Option.bind_eq_some_iff, Option.pure_def,
        Option.some.injEq] at hm
      obtain ⟨a, ha, b, hb, rfl⟩ := hm
      exact ⟨a, b, ha, hb, rfl⟩
    rcases h with h | h
    · obtain ⟨h1, h2⟩ := ihp h
      refine ⟨by simp only [width]; omega, fun m hw => ?_⟩
      obtain ⟨a, b, ha, -, rfl⟩ := hm m hw
      have := h2 a ha
      omega
    · obtain ⟨h1, h2⟩ := ihq h
      refine ⟨by simp only [width]; omega, fun m hw => ?_⟩
      obtain ⟨a, b, -, hb, rfl⟩ := hm m hw
      have := h2 b hb
      omega
  | many lo hi greedy p ih =>
    obtain ⟨n, hlo, hhi, hr⟩ := h
    refine ⟨?_, fun m hm => ?_⟩
    · have := hr.le fun a b hab => (ih hab).1
      have hmul : (p.width w).1 * lo ≤ (p.width w).1 * n := Nat.mul_le_mul_left _ hlo
      simp only [width]
      omega
    · simp only [width] at hm
      have hle : ∀ b, (p.width w).2 = some b → j ≤ i + b * n :=
        fun b hb => hr.ge fun x y hxy => (ih hxy).2 b hb
      split at hm
      · rename_i hb
        have := hle 0 hb
        omega
      · rename_i a b _ hb
        cases hm
        have := hle b hb
        have := Nat.mul_le_mul_right b (hhi a rfl)
        rw [Nat.mul_comm n b] at this
        omega
      · cases hm
        obtain rfl := Nat.le_zero.mp (hhi 0 rfl)
        exact Nat.le_of_eq (Eq.symm hr)
      · cases hm
  | group p ih => exact ih h
  | again _ | atomic _ _ | ifGroup _ _ _ _ => exact h.elim

/-- A match that takes something starts inside the line. -/
theorem lt_length_of_matches {t : Text} {p : Pattern} {i j : Nat} (h : p.Matches t i j)
    (hij : i < j) : i < t.length := by
  induction p generalizing i j with
  | empty | anchor _ | ahead _ _ _ | behind _ _ _ _ => simp_all [Matches]
  | one cls =>
    obtain ⟨c, hc, -, -⟩ := h
    exact (List.getElem?_eq_some_iff.mp hc).1
  | seq p q ihp ihq =>
    obtain ⟨k, hp, hq⟩ := h
    have := (width_of_matches hp (0, none)).1
    by_cases hik : i < k
    · exact ihp hp hik
    · have := ihq hq (by omega)
      omega
  | alt p q ihp ihq => exact h.elim (fun h => ihp h hij) fun h => ihq h hij
  | many lo hi greedy p ih =>
    obtain ⟨n, -, -, hr⟩ := h
    induction n generalizing i with
    | zero => exact absurd (show i = j from hr) (by omega)
    | succ n ihn =>
      obtain ⟨k, hk, hr⟩ := hr
      have := (width_of_matches hk (0, none)).1
      by_cases hik : i < k
      · exact ih hk hik
      · obtain rfl : i = k := by omega
        exact ihn hij hr
  | group p ih => exact ih h hij
  | again _ | atomic _ _ | ifGroup _ _ _ _ => exact h.elim

end Pattern

open Pattern

/-! ## Places and columns -/

namespace Place

theorem isAt_atColumn {t : Text} {i : Nat} (h : i ≤ t.length) :
    (atColumn t i).IsAt t i := ⟨h, rfl, rfl⟩

namespace IsAt

variable {t : Text} {s e : Place} {i j n : Nat}

theorem column_eq (h : s.IsAt t i) : s.column = i := by
  rw [column, h.before, List.length_reverse, List.length_take, Nat.min_eq_left h.le]

theorem unique (h : s.IsAt t i) (h' : s.IsAt t j) : i = j := by
  rw [← h.column_eq, h'.column_eq]

theorem length_after (h : s.IsAt t i) : s.after.length = t.length - i := by
  rw [h.after, List.length_drop]

theorem head?_after (h : s.IsAt t i) : s.after.head? = t[i]? := by
  rw [h.after, List.head?_drop]

/-- What was captured has no influence on where a place is. -/
theorem withCaptured (h : s.IsAt t i) (cap : Option Text) :
    { s with captured := cap }.IsAt t i := ⟨h.le, h.before, h.after⟩

theorem next (h : s.IsAt t i) (hi : i < t.length) : s.next.IsAt t (i + 1) := by
  have ha : s.after = t[i] :: t.drop (i + 1) := by rw [h.after, List.drop_eq_getElem_cons hi]
  have hn : s.next = { s with before := t[i] :: s.before, after := t.drop (i + 1) } := by
    simp only [Place.next, ha]
  rw [hn]
  refine ⟨hi, ?_, rfl⟩
  rw [h.before, List.take_succ_eq_append_getElem hi, List.reverse_append]
  rfl

theorem back (h : s.IsAt t (i + 1)) : s.back.IsAt t i := by
  have hi : i < t.length := h.le
  have hb : s.before = t[i] :: (t.take i).reverse := by
    rw [h.before, List.take_succ_eq_append_getElem hi, List.reverse_append]
    rfl
  have hn : s.back = { s with before := (t.take i).reverse, after := t[i] :: s.after } := by
    simp only [Place.back, hb]
  rw [hn]
  refine ⟨Nat.le_of_lt hi, rfl, ?_⟩
  rw [h.after, List.drop_eq_getElem_cons hi]

theorem back?_eq_some (h : s.IsAt t (i + n)) : ∃ b, s.back? n = some b ∧ b.IsAt t i := by
  induction n generalizing s with
  | zero => exact ⟨s, rfl, h⟩
  | succ n ih =>
    obtain ⟨b, hb, hi⟩ := ih h.back
    refine ⟨b, ?_, hi⟩
    rw [back?, if_neg, hb]
    have := h.column_eq
    intro he
    simp only [column, List.isEmpty_iff.mp he, List.length_nil] at this
    omega

theorem back?_eq_none (h : s.IsAt t i) (hn : i < n) : s.back? n = none := by
  induction n generalizing s i with
  | zero => omega
  | succ n ih =>
    rw [back?]
    cases i with
    | zero => rw [if_pos (by simp [h.before])]
    | succ i =>
      split
      · rfl
      · exact ih h.back (by omega)

theorem textTo_eq (h : s.IsAt t i) (he : e.IsAt t j) :
    s.textTo e = (t.drop i).take (j - i) := by
  have := he.le
  rw [textTo, h.length_after, he.length_after, h.after]
  by_cases hij : i ≤ j
  · rw [show t.length - i - (t.length - j) = j - i by omega]
  · rw [show t.length - i - (t.length - j) = 0 by omega, show j - i = 0 by omega]

end IsAt
end Place

/-! ## Ways and matches -/

/-- The ways from a place at any column lead exactly to the columns that a relation gives. -/
structure Reads (t : Text) (w : Place → List Place) (R : Nat → Nat → Prop) : Prop where
  sound : ∀ {s e i}, s.IsAt t i → e ∈ w s → ∃ j, e.IsAt t j ∧ R i j
  complete : ∀ {s i j}, s.IsAt t i → R i j → ∃ e ∈ w s, e.IsAt t j

namespace Reads

variable {t : Text} {w : Place → List Place} {R : Nat → Nat → Prop}

theorem times (h : Reads t w R) (n : Nat) : Reads t (waysTimes w n) (Repeats R n) := by
  induction n with
  | zero =>
    refine ⟨fun {s e i} hs he => ?_, fun {s i j} hs hr => ?_⟩
    · obtain rfl := List.mem_singleton.mp he
      exact ⟨i, hs, rfl⟩
    · obtain rfl : i = j := hr
      exact ⟨s, List.mem_singleton.mpr rfl, hs⟩
  | succ n ih =>
    refine ⟨fun {s e i} hs he => ?_, fun {s i j} hs hr => ?_⟩
    · obtain ⟨m, hm, he⟩ := List.mem_flatMap.mp he
      obtain ⟨k, hk, hik⟩ := h.sound hs hm
      obtain ⟨j, hj, hkj⟩ := ih.sound hk he
      exact ⟨j, hj, k, hik, hkj⟩
    · obtain ⟨k, hik, hkj⟩ := hr
      obtain ⟨m, hm, hk⟩ := h.complete hs hik
      obtain ⟨e, he, hj⟩ := ih.complete hk hkj
      exact ⟨e, List.mem_flatMap.mpr ⟨m, hm, he⟩, hj⟩

theorem mem_waysMore_succ {greedy : Bool} {n : Nat} {s e : Place} :
    e ∈ waysMore w greedy (n + 1) s ↔
      e = s ∨ ∃ m ∈ w s,
        e ∈ if m.after.length < s.after.length then waysMore w greedy n m else [m] := by
  cases greedy <;> simp [waysMore, or_comm]

/-- Where every step goes on, the rule for repetitions that take nothing never applies. -/
theorem more (h : Reads t w R) (hR : ∀ i j, R i j → i < j) (greedy : Bool) (n : Nat) :
    Reads t (waysMore w greedy n) fun i j => ∃ m ≤ n, Repeats R m i j := by
  induction n with
  | zero =>
    refine ⟨fun {s e i} hs he => ?_, fun {s i j} hs hr => ?_⟩
    · obtain rfl := List.mem_singleton.mp he
      exact ⟨i, hs, 0, Nat.le_refl 0, rfl⟩
    · obtain ⟨m, hm, hr⟩ := hr
      obtain rfl := Nat.le_zero.mp hm
      obtain rfl : i = j := hr
      exact ⟨s, List.mem_singleton.mpr rfl, hs⟩
  | succ n ih =>
    have hstep : ∀ {s m : Place} {i k : Nat}, s.IsAt t i → m.IsAt t k → R i k →
        m.after.length < s.after.length := by
      intro s m i k hs hm hik
      rw [hs.length_after, hm.length_after]
      have := hR i k hik
      have := hm.le
      omega
    refine ⟨fun {s e i} hs he => ?_, fun {s i j} hs hr => ?_⟩
    · rcases mem_waysMore_succ.mp he with rfl | ⟨m, hm, he⟩
      · exact ⟨i, hs, 0, Nat.zero_le _, rfl⟩
      · obtain ⟨k, hk, hik⟩ := h.sound hs hm
        rw [if_pos (hstep hs hk hik)] at he
        obtain ⟨j, hj, l, hl, hkj⟩ := ih.sound hk he
        exact ⟨j, hj, l + 1, Nat.succ_le_succ hl, k, hik, hkj⟩
    · obtain ⟨m, hm, hr⟩ := hr
      cases m with
      | zero =>
        obtain rfl : i = j := hr
        exact ⟨s, mem_waysMore_succ.mpr (.inl rfl), hs⟩
      | succ m =>
        obtain ⟨k, hik, hkj⟩ := hr
        obtain ⟨p, hp, hk⟩ := h.complete hs hik
        obtain ⟨e, he, hj⟩ := ih.complete hk ⟨m, Nat.le_of_succ_le_succ hm, hkj⟩
        refine ⟨e, mem_waysMore_succ.mpr (.inr ⟨p, hp, ?_⟩), hj⟩
        rwa [if_pos (hstep hs hk hik)]

/-- Nothing is left of a line behind its end. -/
theorem le_length (h : Reads t w R) {i j : Nat} (hi : i ≤ t.length) (hr : R i j) :
    j ≤ t.length := by
  obtain ⟨e, -, he⟩ := h.complete (Place.isAt_atColumn hi) hr
  exact he.le

theorem nil_iff (h : Reads t w R) {s : Place} {i : Nat} (hs : s.IsAt t i) :
    w s = [] ↔ ¬ ∃ j, R i j := by
  constructor
  · rintro hw ⟨j, hj⟩
    obtain ⟨e, he, -⟩ := h.complete hs hj
    simp [hw] at he
  · intro hno
    refine List.eq_nil_iff_forall_not_mem.mpr fun e he => hno ?_
    obtain ⟨j, -, hj⟩ := h.sound hs he
    exact ⟨j, hj⟩

end Reads

theorem Anchor.holds_eq (a : Anchor) {t : Text} {s : Place} {i : Nat} (h : s.IsAt t i) :
    a.holds s = a.holds (.atColumn t i) := by
  cases a <;> simp [Anchor.holds, Place.isWordEdge, Place.atColumn, h.before, h.after]

theorem reads_many {t : Text} {lo : Nat} {hi : Option Nat} {greedy : Bool} {p : Pattern}
    (h : Reads t p.ways (p.Matches t)) (hhi : hi.all (lo ≤ ·) = true)
    (hw : 0 < (p.width (0, none)).1) :
    Reads t (ways (.many lo hi greedy p)) (Matches t (.many lo hi greedy p)) := by
  have hR : ∀ i j, p.Matches t i j → i < j := by
    intro i j hij
    have := (width_of_matches hij (0, none)).1
    omega
  refine ⟨fun {s e i} hs he => ?_, fun {s i j} hs hr => ?_⟩
  · obtain ⟨m, hm, he⟩ := List.mem_flatMap.mp he
    obtain ⟨k, hk, hik⟩ := (h.times lo).sound hs hm
    obtain ⟨j, hj, n, hn, hkj⟩ := (h.more hR greedy _).sound hk he
    refine ⟨j, hj, lo + n, Nat.le_add_right lo n, fun b hb => ?_, repeats_add.mpr ⟨k, hik, hkj⟩⟩
    obtain rfl : hi = some b := hb
    simp only [Option.map_some, Option.getD_some] at hn
    simp only [Option.all_some, decide_eq_true_eq] at hhi
    omega
  · obtain ⟨n, hlo, hle, hr⟩ := hr
    obtain ⟨d, rfl⟩ := Nat.exists_eq_add_of_le hlo
    obtain ⟨k, hik, hkj⟩ := repeats_add.mp hr
    obtain ⟨m, hm, hk⟩ := (h.times lo).complete hs hik
    -- each of the further repetitions takes a character, so the line bounds their number
    have hd : d ≤ (hi.map (· - lo)).getD (m.after.length + 1) := by
      cases hi with
      | some b =>
        have := hle b rfl
        simp
        omega
      | none =>
        have := hkj.le (a := 1) hR
        have := (h.times d).le_length hk.le hkj
        simp only [Option.map_none, Option.getD_none, hk.length_after]
        omega
    obtain ⟨e, he, hj⟩ := (h.more hR greedy _).complete hk ⟨d, hd, hkj⟩
    exact ⟨e, List.mem_flatMap.mpr ⟨m, hm, he⟩, hj⟩

/-- What is looked for behind a place can only start where its width says. -/
theorem back?_ways {t : Text} {p : Pattern} {n : Nat}
    (h : Reads t p.ways (p.Matches t)) (hw : p.width (0, none) = (n, some n)) {s : Place}
    {i : Nat} (hs : s.IsAt t i) :
    ((s.back? n).bind fun b => (p.ways b).head?) = none ↔ ¬ ∃ k, p.Matches t k i := by
  have hwidth : ∀ {k j}, p.Matches t k j → j = k + n := by
    intro k j hkj
    obtain ⟨h1, h2⟩ := width_of_matches hkj (0, none)
    rw [hw] at h1 h2
    have := h2 n rfl
    omega
  by_cases hn : n ≤ i
  · obtain ⟨b, hb, hbi⟩ := (show s.IsAt t (i - n + n) by rwa [Nat.sub_add_cancel hn]).back?_eq_some
    rw [hb, Option.bind_some, List.head?_eq_none_iff, h.nil_iff hbi]
    refine not_congr ⟨?_, ?_⟩
    · rintro ⟨j, hj⟩
      obtain rfl : j = i := by rw [hwidth hj]; omega
      exact ⟨_, hj⟩
    · rintro ⟨k, hk⟩
      obtain rfl : i - n = k := by rw [hwidth hk]; omega
      exact ⟨i, hk⟩
  · rw [hs.back?_eq_none (by omega)]
    simp only [Option.bind_none, true_iff]
    rintro ⟨k, hk⟩
    have := hwidth hk
    omega

/-- Looking around stays where it is, if what it finds is what it wants. -/
theorem reads_look {t : Text} {found : Place → Option Place} {Q : Nat → Prop}
    (h : ∀ {s i}, s.IsAt t i → (found s = none ↔ ¬ Q i)) (negated : Bool) :
    Reads t
      (fun s => match found s with
        | some e => if negated then [] else [{ s with captured := e.captured }]
        | none => if negated then [s] else [])
      fun i j => i = j ∧ (Q i ↔ negated = false) := by
  refine ⟨fun {s e i} hs he => ?_, fun {s i j} hs hr => ?_⟩
  · have hq := h hs
    cases hf : found s with
    | some m =>
      cases negated with
      | true => simp [hf] at he
      | false =>
        simp only [hf, Bool.false_eq_true, if_false, List.mem_singleton] at he
        subst he
        exact ⟨i, hs.withCaptured _, rfl, by simpa [hf] using hq⟩
    | none =>
      cases negated with
      | true =>
        simp only [hf, if_true, List.mem_singleton] at he
        subst he
        exact ⟨i, hs, rfl, by simpa [hf] using hq⟩
      | false => simp [hf] at he
  · obtain ⟨rfl, hr⟩ := hr
    have hq := h hs
    cases hf : found s with
    | some m =>
      obtain rfl : negated = false := hr.mp (by simpa [hf] using hq)
      exact ⟨_, by simp, hs.withCaptured m.captured⟩
    | none =>
      obtain rfl : negated = true := by
        have hno : ¬ Q i := by simpa [hf] using hq
        simpa [hno] using hr
      exact ⟨s, by simp, hs⟩

/-- **The ways of a regular pattern are its matches.** -/
theorem reads_ways (t : Text) {p : Pattern} (hp : p.isRegular = true) :
    Reads t p.ways (p.Matches t) := by
  induction p with
  | empty =>
    refine ⟨fun {s e i} hs he => ?_, fun {s i j} hs hr => ?_⟩
    · obtain rfl := List.mem_singleton.mp he
      exact ⟨i, hs, rfl⟩
    · obtain rfl : i = j := hr
      exact ⟨s, List.mem_singleton.mpr rfl, hs⟩
  | one cls =>
    refine ⟨fun {s e i} hs he => ?_, fun {s i j} hs hr => ?_⟩
    · rw [ways, hs.head?_after] at he
      cases hc : t[i]? with
      | none => simp [hc] at he
      | some c =>
        by_cases ha : cls.accepts c = true
        · simp only [hc, Option.any_some, ha, if_true, List.mem_singleton] at he
          subst he
          exact ⟨i + 1, hs.next (List.getElem?_eq_some_iff.mp hc).1, c, hc, ha, rfl⟩
        · simp [hc, ha] at he
    · obtain ⟨c, hc, ha, rfl⟩ := hr
      refine ⟨s.next, ?_, hs.next (List.getElem?_eq_some_iff.mp hc).1⟩
      simp [ways, hs.head?_after, hc, ha]
  | seq p q ihp ihq =>
    simp only [isRegular, Bool.and_eq_true] at hp
    refine ⟨fun {s e i} hs he => ?_, fun {s i j} hs hr => ?_⟩
    · obtain ⟨m, hm, he⟩ := List.mem_flatMap.mp he
      obtain ⟨k, hk, hik⟩ := (ihp hp.1).sound hs hm
      obtain ⟨j, hj, hkj⟩ := (ihq hp.2).sound hk he
      exact ⟨j, hj, k, hik, hkj⟩
    · obtain ⟨k, hik, hkj⟩ := hr
      obtain ⟨m, hm, hk⟩ := (ihp hp.1).complete hs hik
      obtain ⟨e, he, hj⟩ := (ihq hp.2).complete hk hkj
      exact ⟨e, List.mem_flatMap.mpr ⟨m, hm, he⟩, hj⟩
  | alt p q ihp ihq =>
    simp only [isRegular, Bool.and_eq_true] at hp
    refine ⟨fun {s e i} hs he => ?_, fun {s i j} hs hr => ?_⟩
    · rcases List.mem_append.mp he with he | he
      · obtain ⟨j, hj, hm⟩ := (ihp hp.1).sound hs he
        exact ⟨j, hj, .inl hm⟩
      · obtain ⟨j, hj, hm⟩ := (ihq hp.2).sound hs he
        exact ⟨j, hj, .inr hm⟩
    · rcases hr with hr | hr
      · obtain ⟨e, he, hj⟩ := (ihp hp.1).complete hs hr
        exact ⟨e, List.mem_append_left _ he, hj⟩
      · obtain ⟨e, he, hj⟩ := (ihq hp.2).complete hs hr
        exact ⟨e, List.mem_append_right _ he, hj⟩
  | many lo hi greedy p ih =>
    simp only [isRegular, Bool.and_eq_true, decide_eq_true_eq] at hp
    exact reads_many (ih hp.2) hp.1.1 hp.1.2
  | group p ih =>
    refine ⟨fun {s e i} hs he => ?_, fun {s i j} hs hr => ?_⟩
    · obtain ⟨m, hm, rfl⟩ := List.mem_map.mp he
      obtain ⟨j, hj, hij⟩ := (ih hp).sound hs hm
      exact ⟨j, hj.withCaptured _, hij⟩
    · obtain ⟨m, hm, hj⟩ := (ih hp).complete hs hr
      exact ⟨_, List.mem_map.mpr ⟨m, hm, rfl⟩, hj.withCaptured _⟩
  | anchor a =>
    refine ⟨fun {s e i} hs he => ?_, fun {s i j} hs hr => ?_⟩
    · rw [ways, a.holds_eq hs] at he
      by_cases ha : a.holds (.atColumn t i) = true
      · rw [if_pos ha] at he
        obtain rfl := List.mem_singleton.mp he
        exact ⟨i, hs, rfl, ha⟩
      · simp [ha] at he
    · obtain ⟨rfl, ha⟩ := hr
      refine ⟨s, ?_, hs⟩
      rw [ways, a.holds_eq hs, if_pos ha]
      exact List.mem_singleton.mpr rfl
  | ahead negated p ih =>
    exact reads_look (fun {s i} hs => List.head?_eq_none_iff.trans ((ih hp).nil_iff hs)) negated
  | behind negated n p ih =>
    simp only [isRegular, Bool.and_eq_true, beq_iff_eq] at hp
    exact reads_look (fun {s i} hs => back?_ways (ih hp.2) hp.1 hs) negated
  | again _ | atomic _ _ | ifGroup _ _ _ _ => simp [isRegular] at hp

/-- **A search at a place finds a match where there is one.** -/
theorem run_some_iff {t : Text} {p : Pattern} (hp : p.isRegular = true) {s : Place} {i : Nat}
    (hs : s.IsAt t i) :
    (p.run s some = none ↔ ¬ ∃ j, p.Matches t i j) ∧
      ∀ e, p.run s some = some e → ∃ j, e.IsAt t j ∧ p.Matches t i j := by
  have h := reads_ways t hp
  rw [run_eq_findSome?_ways p (hasOrderedBounds_of_isRegular hp), findSome?_some_eq_head?]
  refine ⟨List.head?_eq_none_iff.trans (h.nil_iff hs), fun e he => ?_⟩
  exact h.sound hs (List.mem_of_head? he)

/-- A run from a place finds out whether there is a match. -/
theorem isSome_run_iff {t : Text} {p : Pattern} (hp : p.isRegular = true) {s : Place} {i : Nat}
    (hs : s.IsAt t i) : (p.run s some).isSome = true ↔ ∃ j, p.Matches t i j := by
  rw [Option.isSome_iff_ne_none, ne_eq, (run_some_iff hp hs).1, Classical.not_not]

end EnvAudit
