import EnvAudit.Pattern.Search

/-!
# A match is the first way that goes on

`Pattern.run` backtracks with a continuation, and takes a shortcut for repetitions of a single
class: it runs as far as it may and then goes back (or, if it is lazy, forth) one character at a
time. `Pattern.ways` lists all ways in order of preference and takes no shortcut.
`run_eq_findSome?_ways` says that they agree: a run yields what the first way yields from which the
continuation goes on. The one thing that is asked of the pattern is that no repetition has a
greatest number below its least (`hasOrderedBounds`).
-/
namespace EnvAudit

namespace Pattern

/-- Whether no repetition has a greatest number below its least. -/
def hasOrderedBounds : Pattern → Bool
  | .empty | .one _ | .again _ | .anchor _ => true
  | .seq p q | .alt p q | .ifGroup p q => hasOrderedBounds p && hasOrderedBounds q
  | .many lo hi _ p => hi.all (lo ≤ ·) && hasOrderedBounds p
  | .group p | .atomic p | .ahead _ p | .behind _ _ p => hasOrderedBounds p

end Pattern

open Pattern

/-! ## Lists of ways -/

theorem findSome?_flatMap {α β γ : Type} (l : List α) (f : α → List β) (k : β → Option γ) :
    (l.flatMap f).findSome? k = l.findSome? fun a => (f a).findSome? k := by
  induction l with
  | nil => rfl
  | cons a l ih =>
    rw [List.flatMap_cons, List.findSome?_append, ih, List.findSome?_cons]
    cases (f a).findSome? k <;> rfl

theorem findSome?_some_eq_head? {α : Type} (l : List α) : l.findSome? some = l.head? := by
  cases l <;> rfl

/-! ## Runs of one class -/

theorem ways_one_cons {cls : CharClass} {c : Char} {b a : Text} {cap : Option Text} :
    ways (.one cls) ⟨b, c :: a, cap⟩ = if cls.accepts c then [⟨c :: b, a, cap⟩] else [] := by
  by_cases hc : cls.accepts c = true <;> simp [ways, Place.next, hc]

theorem ways_one_nil {cls : CharClass} {b : Text} {cap : Option Text} :
    ways (.one cls) ⟨b, [], cap⟩ = [] := rfl

theorem ways_many (lo : Nat) (hi : Option Nat) (greedy : Bool) (p : Pattern) (s : Place) :
    ways (.many lo hi greedy p) s = (waysTimes p.ways lo s).flatMap fun e =>
      waysMore p.ways greedy ((hi.map (· - lo)).getD (e.after.length + 1)) e := rfl

/-- The characters that were taken before only count. -/
theorem takeRun_add (cls : CharClass) (limit : Option Nat) (n d : Nat) (b a : Text) :
    takeRun cls limit (n + d) b a =
      ((takeRun cls limit n b a).1 + d, (takeRun cls limit n b a).2) := by
  induction a generalizing limit n b with
  | nil => rfl
  | cons c a ih =>
    simp only [takeRun]
    split
    · rw [show n + d + 1 = n + 1 + d by omega, ih]
    · rfl

theorem takeRun_cons {cls : CharClass} {limit : Option Nat} {c : Char} {b a : Text}
    (hl : limit ≠ some 0) (hc : cls.accepts c = true) :
    takeRun cls limit 0 b (c :: a) =
      ((takeRun cls (limit.map (· - 1)) 0 (c :: b) a).1 + 1,
        (takeRun cls (limit.map (· - 1)) 0 (c :: b) a).2) := by
  have hne : (limit != some 0) = true := by simpa using hl
  rw [takeRun, hne, hc, Bool.and_self, if_pos rfl]
  exact takeRun_add cls _ 0 1 (c :: b) a

theorem takeRun_stop {cls : CharClass} {limit : Option Nat} {b a : Text}
    (h : limit = some 0 ∨ ∀ c ∈ a.head?, cls.accepts c = false) :
    takeRun cls limit 0 b a = (0, b, a) := by
  cases a with
  | nil => rfl
  | cons c a =>
    rw [takeRun, if_neg]
    rcases h with rfl | h
    · simp
    · simp [h c rfl]

/-- Going back from the end of a run tries what a greedy repetition tries, and then goes on back. -/
theorem tryBackwards_takeRun (cls : CharClass) (k : Continuation) (cap : Option Text) :
    ∀ (fuel : Nat) (limit : Option Nat) (b a : Text) (d : Nat),
      limit = some fuel ∨ limit = none ∧ a.length < fuel →
      ∃ far, waysMore (ways (.one cls)) true fuel ⟨b, a, cap⟩ = far ++ [⟨b, a, cap⟩] ∧
        tryBackwards k ((takeRun cls limit 0 b a).1 + d)
            ⟨(takeRun cls limit 0 b a).2.1, (takeRun cls limit 0 b a).2.2, cap⟩ =
          (far.findSome? k).or (tryBackwards k d ⟨b, a, cap⟩)
  | 0, limit, b, a, d, hl => by
    obtain rfl : limit = some 0 := by simpa using hl
    refine ⟨[], rfl, ?_⟩
    rw [takeRun_stop (.inl rfl), Nat.zero_add]
    rfl
  | fuel + 1, limit, b, [], d, hl => ⟨[], by simp [waysMore, ways_one_nil], by simp [takeRun]⟩
  | fuel + 1, limit, b, c :: a, d, hl => by
    by_cases hc : cls.accepts c = true
    · have hne : limit ≠ some 0 := by rcases hl with rfl | ⟨rfl, -⟩ <;> simp
      have hl' : limit.map (· - 1) = some fuel ∨ limit.map (· - 1) = none ∧ a.length < fuel := by
        rcases hl with rfl | ⟨rfl, h⟩
        · exact .inl rfl
        · exact .inr ⟨rfl, by simpa using h⟩
      obtain ⟨far, hw, ht⟩ := tryBackwards_takeRun cls k cap fuel _ (c :: b) a (d + 1) hl'
      refine ⟨far ++ [⟨c :: b, a, cap⟩], ?_, ?_⟩
      · simp [waysMore, ways_one_cons, hc, hw]
      · rw [takeRun_cons hne hc, Nat.add_right_comm, Nat.add_assoc, ht, List.findSome?_append,
          Option.or_assoc]
        congr 1
        rw [tryBackwards]
        cases hk : k ⟨c :: b, a, cap⟩ <;> simp [hk, Place.back]
    · refine ⟨[], by simp [waysMore, ways_one_cons, hc], ?_⟩
      rw [takeRun_stop (.inr (by simpa using hc)), Nat.zero_add]
      rfl

/-- Going forth along a run tries what a lazy repetition tries. -/
theorem tryForwards_takeRun (cls : CharClass) (k : Continuation) (cap : Option Text) :
    ∀ (fuel : Nat) (limit : Option Nat) (b a : Text),
      limit = some fuel ∨ limit = none ∧ a.length < fuel →
      tryForwards cls k (takeRun cls limit 0 b a).1 ⟨b, a, cap⟩ =
        (waysMore (ways (.one cls)) false fuel ⟨b, a, cap⟩).findSome? k
  | 0, limit, b, a, hl => by
    obtain rfl : limit = some 0 := by simpa using hl
    rw [takeRun_stop (.inl rfl)]
    cases hk : k ⟨b, a, cap⟩ <;> simp [tryForwards, waysMore, hk]
  | fuel + 1, limit, b, [], hl => by
    cases hk : k ⟨b, [], cap⟩ <;> simp [takeRun, tryForwards, waysMore, ways_one_nil, hk]
  | fuel + 1, limit, b, c :: a, hl => by
    by_cases hc : cls.accepts c = true
    · have hne : limit ≠ some 0 := by rcases hl with rfl | ⟨rfl, -⟩ <;> simp
      have hl' : limit.map (· - 1) = some fuel ∨ limit.map (· - 1) = none ∧ a.length < fuel := by
        rcases hl with rfl | ⟨rfl, h⟩
        · exact .inl rfl
        · exact .inr ⟨rfl, by simpa using h⟩
      have ih := tryForwards_takeRun cls k cap fuel _ (c :: b) a hl'
      rw [takeRun_cons hne hc, tryForwards]
      cases hk : k ⟨b, c :: a, cap⟩ with
      | some e => simp [waysMore, hk]
      | none => simp [waysMore, ways_one_cons, hc, hk, Place.next, ih]
    · rw [takeRun_stop (.inr (by simpa using hc))]
      cases hk : k ⟨b, c :: a, cap⟩ <;> simp [tryForwards, waysMore, ways_one_cons, hc, hk]

theorem repeat_next_succ (n : Nat) (s : Place) :
    Nat.repeat Place.next (n + 1) s = Nat.repeat Place.next n s.next := by
  induction n with
  | zero => rfl
  | succ n ih => exact congrArg Place.next ih

/-- The shortcut for a class: taking one character more at the start. -/
theorem runOfClass_succ {cls : CharClass} {lo : Nat} {hi : Option Nat} {greedy : Bool} {c : Char}
    {b a : Text} {cap : Option Text} {k : Continuation} (hhi : hi ≠ some 0)
    (hc : cls.accepts c = true) :
    runOfClass cls (lo + 1) hi greedy ⟨b, c :: a, cap⟩ k =
      runOfClass cls lo (hi.map (· - 1)) greedy ⟨c :: b, a, cap⟩ k := by
  simp only [runOfClass, takeRun_cons hhi hc, Nat.add_lt_add_iff_right, Nat.add_sub_add_right,
    repeat_next_succ, Place.next]

/-- The shortcut for repetitions of a class tries their ways in order. -/
theorem runOfClass_eq (cls : CharClass) (greedy : Bool) (k : Continuation) (lo : Nat)
    (hi : Option Nat) (s : Place) (h : hi.all (lo ≤ ·) = true) :
    runOfClass cls lo hi greedy s k = (ways (.many lo hi greedy (.one cls)) s).findSome? k := by
  induction lo generalizing hi s with
  | zero =>
    obtain ⟨b, a, cap⟩ := s
    have hfuel : hi = some (hi.getD (a.length + 1)) ∨ hi = none ∧ a.length < hi.getD (a.length + 1) := by
      cases hi <;> simp
    have hid : (hi.map fun x => x - 0) = hi := by cases hi <;> rfl
    simp only [ways_many, waysTimes, List.flatMap_cons, List.flatMap_nil, List.append_nil, hid]
    simp only [runOfClass, Nat.not_lt_zero, if_false, Nat.sub_zero, Nat.repeat]
    cases greedy with
    | true =>
      obtain ⟨far, hw, ht⟩ := tryBackwards_takeRun cls k cap _ hi b a 0 hfuel
      rw [Nat.add_zero] at ht
      rw [if_pos rfl, ht, hw, List.findSome?_append]
      cases hk : k ⟨b, a, cap⟩ <;> simp [tryBackwards, hk]
    | false =>
      rw [if_neg (by simp), tryForwards_takeRun cls k cap _ hi b a hfuel]
  | succ lo ih =>
    obtain ⟨b, a, cap⟩ := s
    have hhi : hi ≠ some 0 := by rintro rfl; simp at h
    have hstop : ∀ a : Text, (∀ c ∈ a.head?, cls.accepts c = false) →
        runOfClass cls (lo + 1) hi greedy ⟨b, a, cap⟩ k = none := by
      intro a ha
      have hrun : takeRun cls hi 0 b a = (0, b, a) := takeRun_stop (.inr ha)
      simp [runOfClass, hrun]
    cases a with
    | nil => rw [hstop [] (by simp)]; simp [ways_many, waysTimes, ways_one_nil]
    | cons c a =>
      by_cases hc : cls.accepts c = true
      · have hle : (hi.map (· - 1)).all (lo ≤ ·) = true := by
          cases hi with
          | none => rfl
          | some n => simp at h ⊢; omega
        have hsub : ((hi.map (· - 1)).map fun x => x - lo) = hi.map fun x => x - (lo + 1) := by
          cases hi with
          | none => rfl
          | some n => simp; omega
        rw [runOfClass_succ hhi hc, ih _ _ hle]
        simp [ways_many, waysTimes, hsub, ways_one_cons, hc]
      · rw [hstop (c :: a) (by simpa using hc)]
        simp [ways_many, waysTimes, ways_one_cons, hc]

/-! ## Runs of any pattern -/

section

variable {m : Place → Continuation → Option Place} {w : Place → List Place}

theorem runTimes_eq (hm : ∀ s k, m s k = (w s).findSome? k) (n : Nat) (s : Place)
    (k : Continuation) : runTimes m n s k = (waysTimes w n s).findSome? k := by
  induction n generalizing s with
  | zero => cases hk : k s <;> simp [runTimes, waysTimes, hk]
  | succ n ih =>
    rw [runTimes, waysTimes, hm, findSome?_flatMap]
    exact congrArg (fun f => (w s).findSome? f) (funext fun e => ih e)

theorem runMore_eq (hm : ∀ s k, m s k = (w s).findSome? k) (greedy : Bool) (n : Nat) (s : Place)
    (k : Continuation) : runMore m greedy n s k = (waysMore w greedy n s).findSome? k := by
  induction n generalizing s with
  | zero => cases hk : k s <;> simp [runMore, waysMore, hk]
  | succ n ih =>
    have hmore : (m s fun e =>
        if e.after.length < s.after.length then runMore m greedy n e k else k e) =
        ((w s).flatMap fun e =>
          if e.after.length < s.after.length then waysMore w greedy n e else [e]).findSome? k := by
      rw [hm, findSome?_flatMap]
      refine congrArg (fun f => (w s).findSome? f) (funext fun e => ?_)
      by_cases he : e.after.length < s.after.length
      · simp only [he, if_true, ih]
      · cases hk : k e <;> simp [he, hk]
    simp only [runMore, waysMore, hmore]
    cases greedy with
    | true =>
      rw [if_pos rfl, if_pos rfl, List.findSome?_append]
      cases ((w s).flatMap fun e =>
        if e.after.length < s.after.length then waysMore w true n e else [e]).findSome? k with
      | some e => rfl
      | none => cases hk : k s <;> simp [hk]
    | false =>
      rw [if_neg (by simp), if_neg (by simp), List.findSome?_cons]
      cases k s <;> rfl

end

/-- **A run yields what the first way yields from which the continuation goes on.** -/
theorem run_eq_findSome?_ways (p : Pattern) (hp : p.hasOrderedBounds = true) (s : Place)
    (k : Continuation) : p.run s k = (p.ways s).findSome? k := by
  induction p generalizing s k with
  | empty => cases hk : k s <;> simp [run, ways, hk]
  | one cls =>
    obtain ⟨b, a, cap⟩ := s
    cases a with
    | nil => rfl
    | cons c a =>
      by_cases hc : cls.accepts c = true
      · cases hk : k ⟨c :: b, a, cap⟩ <;> simp [run, ways, hc, Place.next, hk]
      · simp [run, ways, hc]
  | seq p q ihp ihq =>
    simp only [hasOrderedBounds, Bool.and_eq_true] at hp
    rw [run, ways, ihp hp.1, findSome?_flatMap]
    exact congrArg (fun f => (p.ways s).findSome? f) (funext fun e => ihq hp.2 e k)
  | alt p q ihp ihq =>
    simp only [hasOrderedBounds, Bool.and_eq_true] at hp
    rw [run, ways, ihp hp.1, ihq hp.2, List.findSome?_append]
    cases (p.ways s).findSome? k <;> rfl
  | many lo hi greedy p ih =>
    simp only [hasOrderedBounds, Bool.and_eq_true] at hp
    by_cases hone : ∃ cls, p = .one cls
    · obtain ⟨cls, rfl⟩ := hone
      exact runOfClass_eq cls greedy k lo hi s hp.1
    · rw [run, ways_many, findSome?_flatMap, runTimes_eq (ih hp.2)]
      · exact congrArg (fun f => (waysTimes p.ways lo s).findSome? f)
          (funext fun e => runMore_eq (ih hp.2) ..)
      · exact fun cls h => hone ⟨cls, h⟩
  | group p ih =>
    rw [run, ways, ih hp, List.findSome?_map]
    rfl
  | again ic =>
    rw [run, ways]
    cases s.captured with
    | none => rfl
    | some t =>
      cases hd : dropText? ic t s with
      | none => simp [hd]
      | some e => cases hk : k e <;> simp [hd, hk]
  | anchor a =>
    rw [run, ways]
    by_cases ha : a.holds s = true
    · cases hk : k s <;> simp [ha, hk]
    · simp [ha]
  | ahead negated p ih =>
    rw [run, ways, ih hp, findSome?_some_eq_head?]
    cases (p.ways s).head? with
    | none => cases negated <;> cases hk : k s <;> simp [hk]
    | some e =>
      cases negated
      · cases hk : k { s with captured := e.captured } <;> simp [hk]
      · simp
  | behind negated width p ih =>
    have hb : ((s.back? width).bind fun b => p.run b some) =
        (s.back? width).bind fun b => (p.ways b).head? :=
      congrArg _ (funext fun b => by rw [ih hp, findSome?_some_eq_head?])
    rw [run, ways, hb]
    cases (s.back? width).bind fun b => (p.ways b).head? with
    | none => cases negated <;> cases hk : k s <;> simp [hk]
    | some e =>
      cases negated
      · cases hk : k { s with captured := e.captured } <;> simp [hk]
      · simp
  | atomic p ih =>
    rw [run, ways, ih hp, findSome?_some_eq_head?]
    cases (p.ways s).head? with
    | none => rfl
    | some e => cases hk : k e <;> simp [hk]
  | ifGroup p q ihp ihq =>
    simp only [hasOrderedBounds, Bool.and_eq_true] at hp
    rw [run, ways]
    split
    · exact ihp hp.1 s k
    · exact ihq hp.2 s k

end EnvAudit
