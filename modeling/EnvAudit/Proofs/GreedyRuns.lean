import EnvAudit.Proofs.PatternWays

/-!
# Greedy runs

A greedy run of one class takes all characters that it can, and gives some of them back if what
follows does not go on from its end. Where nothing goes on from a place inside the run either, it
ends where its class does: `run_atLeast_one`. Names and keys are such runs behind a first character
of a smaller class (`run_word`), and a group around one captures the whole of it.
-/
namespace EnvAudit.Pattern

/-- Behind a run of characters of a kind stands no such character. -/
theorem head?_dropWhile (f : Char → Bool) (t : Text) : (t.dropWhile f).head?.any f = false := by
  have h := List.head?_dropWhile_not f t
  cases hhead : (t.dropWhile f).head? with
  | none => rfl
  | some c => rwa [hhead] at h

section

variable (cls : CharClass) {xs ys b : Text} {cap : Option Text} {k : Continuation}

theorem findSome?_waysMore_one (hxs : ∀ c ∈ xs, cls.accepts c = true)
    (hys : ∀ c ∈ ys.head?, cls.accepts c = false) {fuel : Nat} (hfuel : xs.length ≤ fuel)
    (hk : k ⟨xs.reverse ++ b, ys, cap⟩ = none → ∀ front back, xs = front ++ back → back ≠ [] →
      k ⟨front.reverse ++ b, back ++ ys, cap⟩ = none) :
    (waysMore (ways (.one cls)) true fuel ⟨b, xs ++ ys, cap⟩).findSome? k =
      k ⟨xs.reverse ++ b, ys, cap⟩ := by
  induction xs generalizing b fuel with
  | nil =>
    have hstop : ways (.one cls) ⟨b, ys, cap⟩ = [] := by
      cases ys with
      | nil => rfl
      | cons c ys => rw [ways_one_cons, hys c rfl]; rfl
    cases fuel <;> cases hend : k ⟨b, ys, cap⟩ <;> simp [waysMore, hstop, hend]
  | cons x xs ih =>
    cases fuel with
    | zero => simp at hfuel
    | succ fuel =>
      rw [List.forall_mem_cons] at hxs
      have hrest := ih (b := x :: b) hxs.2 (by simpa using hfuel) (by
        intro hend front back hsplit hne
        have h := hk (by simpa using hend) (x :: front) back (by rw [hsplit]; rfl) hne
        simpa using h)
      have hmore : waysMore (ways (.one cls)) true (fuel + 1) ⟨b, x :: (xs ++ ys), cap⟩ =
          waysMore (ways (.one cls)) true fuel ⟨x :: b, xs ++ ys, cap⟩ ++
            [⟨b, x :: (xs ++ ys), cap⟩] := by
        simp [waysMore, ways_one_cons, hxs.1]
      rw [List.cons_append, hmore, List.findSome?_append, hrest, List.reverse_cons,
        List.append_assoc, List.singleton_append]
      cases hend : k ⟨xs.reverse ++ x :: b, ys, cap⟩ with
      | some e => rfl
      | none =>
        have h := hk (by simpa using hend) [] (x :: xs) rfl (by simp)
        simpa using h

/-- **A greedy run ends where its class does**, unless what follows goes on from a place inside it
and not from its end. -/
theorem run_atLeast_one (t : Text)
    (hk : k ⟨(t.takeWhile cls.accepts).reverse ++ b, t.dropWhile cls.accepts, cap⟩ = none →
      ∀ front back, t.takeWhile cls.accepts = front ++ back → back ≠ [] →
        k ⟨front.reverse ++ b, back ++ t.dropWhile cls.accepts, cap⟩ = none) :
    (atLeast 0 (.one cls)).run ⟨b, t, cap⟩ k =
      k ⟨(t.takeWhile cls.accepts).reverse ++ b, t.dropWhile cls.accepts, cap⟩ := by
  have hxs : ∀ c ∈ t.takeWhile cls.accepts, cls.accepts c = true :=
    List.all_eq_true.mp List.all_takeWhile
  have hys : ∀ c ∈ (t.dropWhile cls.accepts).head?, cls.accepts c = false := by
    intro c hc
    have h := List.head?_dropWhile_not cls.accepts t
    rwa [Option.mem_def.mp hc] at h
  rw [run_eq_findSome?_ways _ rfl, atLeast, ways_many]
  simp only [waysTimes, List.flatMap_cons, List.flatMap_nil, List.append_nil]
  have hlen : (t.takeWhile cls.accepts).length ≤ t.length + 1 :=
    Nat.le_succ_of_le (List.takeWhile_prefix _).length_le
  have hrun := findSome?_waysMore_one cls hxs hys hlen hk
  rwa [List.takeWhile_append_dropWhile] at hrun

/-- A greedy run of at least so many characters ends where its class does, if there are as many. -/
theorem run_atLeast (lo : Nat) (t : Text)
    (hk : k ⟨(t.takeWhile cls.accepts).reverse ++ b, t.dropWhile cls.accepts, cap⟩ = none →
      ∀ front back, t.takeWhile cls.accepts = front ++ back → back ≠ [] →
        k ⟨front.reverse ++ b, back ++ t.dropWhile cls.accepts, cap⟩ = none) :
    (atLeast lo (.one cls)).run ⟨b, t, cap⟩ k =
      if lo ≤ (t.takeWhile cls.accepts).length then
        k ⟨(t.takeWhile cls.accepts).reverse ++ b, t.dropWhile cls.accepts, cap⟩
      else none := by
  induction lo generalizing b t with
  | zero =>
    rw [if_pos (Nat.zero_le _)]
    exact run_atLeast_one cls t hk
  | succ lo ih =>
    have hrun : (atLeast (lo + 1) (.one cls)).run ⟨b, t, cap⟩ k =
        runOfClass cls (lo + 1) none true ⟨b, t, cap⟩ k := rfl
    rw [hrun]
    cases t with
    | nil => rfl
    | cons c t =>
      by_cases hc : cls.accepts c = true
      · rw [List.takeWhile_cons_of_pos hc, List.dropWhile_cons_of_pos hc, List.reverse_cons,
          List.append_assoc, List.singleton_append] at hk ⊢
        rw [runOfClass_succ (by simp) hc, List.length_cons]
        simp only [Nat.add_le_add_iff_right]
        refine ih t fun hend front back hsplit hne => ?_
        have hinside := hk hend (c :: front) back (by rw [hsplit]; rfl) hne
        rwa [List.reverse_cons, List.append_assoc] at hinside
      · have hnone : ∀ d ∈ (c :: t).head?, cls.accepts d = false := by simpa using hc
        rw [List.takeWhile_cons_of_neg hc, if_neg (by simp), runOfClass, takeRun_stop (.inr hnone)]
        rfl

/-- One repetition more, if the next character may be taken. -/
theorem run_atMost_succ (n : Nat) (t : Text) :
    (many 0 (some (n + 1)) true (.one cls)).run ⟨b, t, cap⟩ k =
      if t.head?.any cls.accepts then
        ((many 0 (some n) true (.one cls)).run (Place.next ⟨b, t, cap⟩) k).or (k ⟨b, t, cap⟩)
      else k ⟨b, t, cap⟩ := by
  rw [run_eq_findSome?_ways _ rfl, run_eq_findSome?_ways _ rfl, ways_many, ways_many]
  simp only [waysTimes, List.flatMap_cons, List.flatMap_nil, List.append_nil, Option.map_some,
    Option.getD_some, Nat.sub_zero, waysMore, if_true, List.findSome?_append]
  cases t with
  | nil => cases hk : k ⟨b, [], cap⟩ <;> simp [ways_one_nil, hk]
  | cons c t =>
    by_cases hc : cls.accepts c = true
    · cases hk : k ⟨b, c :: t, cap⟩ <;> simp [ways_one_cons, hc, hk, Place.next]
    · cases hk : k ⟨b, c :: t, cap⟩ <;> simp [ways_one_cons, hc, hk]

theorem run_atMost_zero (t : Text) :
    (many 0 (some 0) true (.one cls)).run ⟨b, t, cap⟩ k = k ⟨b, t, cap⟩ := by
  rw [run_eq_findSome?_ways _ rfl, ways_many]
  cases hk : k ⟨b, t, cap⟩ <;> simp [waysTimes, waysMore, hk]

/-- A run ends where its class does if what follows goes on from no place in it. -/
theorem run_atLeast_of_none (t : Text)
    (hk : ∀ b c a, cls.accepts c = true → k ⟨b, c :: a, cap⟩ = none) :
    (atLeast 0 (.one cls)).run ⟨b, t, cap⟩ k =
      k ⟨(t.takeWhile cls.accepts).reverse ++ b, t.dropWhile cls.accepts, cap⟩ := by
  refine run_atLeast_one cls t fun _ front back hsplit hne => ?_
  obtain ⟨c, back, rfl⟩ := List.exists_cons_of_ne_nil hne
  have hc : c ∈ t.takeWhile cls.accepts := by simp [hsplit]
  exact hk _ c _ (List.all_eq_true.mp List.all_takeWhile c hc)

/-- A run ends where its class does if what follows goes on from there. -/
theorem run_atLeast_of_some {e : Place} {t : Text}
    (hk : k ⟨(t.takeWhile cls.accepts).reverse ++ b, t.dropWhile cls.accepts, cap⟩ = some e) :
    (atLeast 0 (.one cls)).run ⟨b, t, cap⟩ k = some e := by
  rw [run_atLeast_one cls t (by simp [hk]), hk]

end

/-! ## White space -/

/-- White space in a pattern. -/
def blanks : Pattern := atLeast 0 (oneOf [.blank])

/-! ## Words -/

section

variable {first rest : CharClass} (b a : Text) (cap : Option Text) {k : Continuation}

/-- A word ends where its class does if what follows goes on from there, or from no place in it. -/
theorem run_word (hfirst : ∀ c, first.accepts c = true → rest.accepts c = true)
    (hk : k ⟨(a.takeWhile rest.accepts).reverse ++ b, a.dropWhile rest.accepts, cap⟩ = none →
      ∀ b c a, rest.accepts c = true → k ⟨b, c :: a, cap⟩ = none) :
    (seq (.one first) (atLeast 0 (.one rest))).run ⟨b, a, cap⟩ k =
      if a.head?.any first.accepts then
        k ⟨(a.takeWhile rest.accepts).reverse ++ b, a.dropWhile rest.accepts, cap⟩
      else none := by
  cases a with
  | nil => rfl
  | cons c a =>
    have hstart : (seq (.one first) (atLeast 0 (.one rest))).run ⟨b, c :: a, cap⟩ k =
        if first.accepts c then (atLeast 0 (.one rest)).run ⟨c :: b, a, cap⟩ k else none := rfl
    rw [hstart, List.head?_cons, Option.any_some]
    by_cases hc : first.accepts c = true
    · have hrest := hfirst c hc
      have hend : (c :: a.takeWhile rest.accepts).reverse ++ b =
          (a.takeWhile rest.accepts).reverse ++ c :: b := by simp
      rw [List.takeWhile_cons_of_pos hrest, List.dropWhile_cons_of_pos hrest, hend] at hk
      rw [if_pos hc, if_pos hc, List.takeWhile_cons_of_pos hrest, List.dropWhile_cons_of_pos hrest,
        hend]
      refine run_atLeast_one rest a fun hnone front back hsplit hne => ?_
      obtain ⟨d, back, rfl⟩ := List.exists_cons_of_ne_nil hne
      have hd : d ∈ a.takeWhile rest.accepts := by simp [hsplit]
      exact hk hnone _ d _ (List.all_eq_true.mp List.all_takeWhile d hd)
    · rw [if_neg hc, if_neg hc]

theorem textTo_takeWhile (f : Char → Bool) (b' : Text) :
    (⟨b, a, cap⟩ : Place).textTo ⟨b', a.dropWhile f, cap⟩ = a.takeWhile f := by
  have hsplit := List.takeWhile_append_dropWhile (p := f) (l := a)
  have hlen : a.length - (a.dropWhile f).length = (a.takeWhile f).length := by
    rw [← congrArg List.length hsplit, List.length_append, Nat.add_sub_cancel]
  exact (congrArg a.take hlen).trans (List.prefix_iff_eq_take.mp (List.takeWhile_prefix f)).symm

/-- A group around a word captures the whole word. -/
theorem run_group_word (hfirst : ∀ c, first.accepts c = true → rest.accepts c = true)
    (hk : k ⟨(a.takeWhile rest.accepts).reverse ++ b, a.dropWhile rest.accepts,
        some (a.takeWhile rest.accepts)⟩ = none →
      ∀ b c a cap, rest.accepts c = true → k ⟨b, c :: a, cap⟩ = none) :
    (group (seq (.one first) (atLeast 0 (.one rest)))).run ⟨b, a, cap⟩ k =
      if a.head?.any first.accepts then
        k ⟨(a.takeWhile rest.accepts).reverse ++ b, a.dropWhile rest.accepts,
          some (a.takeWhile rest.accepts)⟩
      else none := by
  let k' : Continuation := fun e => k { e with captured := some (Place.textTo ⟨b, a, cap⟩ e) }
  have hend : k' ⟨(a.takeWhile rest.accepts).reverse ++ b, a.dropWhile rest.accepts, cap⟩ =
      k ⟨(a.takeWhile rest.accepts).reverse ++ b, a.dropWhile rest.accepts,
        some (a.takeWhile rest.accepts)⟩ := by
    exact congrArg (fun t => k ⟨_, _, some t⟩) (textTo_takeWhile b a cap rest.accepts _)
  have hrun : (seq (.one first) (atLeast 0 (.one rest))).run ⟨b, a, cap⟩ k' = _ :=
    run_word b a cap hfirst fun hnone b c a hc => hk (hend ▸ hnone) b c a _ hc
  rw [hend] at hrun
  exact hrun

end

end EnvAudit.Pattern
