import EnvAudit.Proofs.GreedyRuns
import EnvAudit.Proofs.HitColumns
import EnvAudit.Proofs.SecretClasses
import Mathlib.Data.List.Forall2

/-!
# Long runs

The pattern for long strings of base64 looks behind for the start of a run, takes the run, and may
take signs of padding, but does not stop where another run starts. A run that it starts in it takes
to its end, for inside the run it must not stop. So its hits are the long runs, each with the signs
of padding that belong to it (`base64_findings`): at most two, and not the last one before another
run.
-/
namespace EnvAudit

open Pattern SecretRule

/-! ## Runs -/

/-- Whether a span is a whole run of characters of a kind: it holds only such characters, and none
stands beside it. -/
structure Span.IsRunOf (f : Char → Bool) (t : Text) (s : Span) : Prop where
  nonempty : s.start < s.stop
  inside : ∀ i, s.start ≤ i → i < s.stop → t[i]?.any f = true
  before : ∀ i, i + 1 = s.start → t[i]?.any f = false
  behind : t[s.stop]?.any f = false

theorem length_takeWhile_iff {α : Type} {f : α → Bool} {l : List α} {n : Nat} :
    (l.takeWhile f).length = n ↔ (∀ k < n, l[k]?.any f = true) ∧ l[n]?.any f = false := by
  induction l generalizing n with
  | nil =>
    constructor
    · rintro rfl
      simp
    · rintro ⟨hall, -⟩
      by_cases hn : 0 < n
      · simpa using hall 0 hn
      · exact (Nat.eq_zero_of_not_pos hn).symm
  | cons a l ih =>
    by_cases ha : f a = true
    · rw [List.takeWhile_cons_of_pos ha, List.length_cons]
      cases n with
      | zero => simp [ha]
      | succ n =>
        rw [Nat.add_right_cancel_iff, ih]
        refine and_congr ⟨fun h k hk => ?_, fun h k hk => h (k + 1) (by omega)⟩ (by simp)
        cases k with
        | zero => simpa using ha
        | succ k => exact h k (by omega)
    · rw [List.takeWhile_cons_of_neg ha]
      constructor
      · rintro rfl
        simpa using ha
      · rintro ⟨hall, -⟩
        by_cases hn : 0 < n
        · exact absurd (by simpa using hall 0 hn) ha
        · exact (Nat.eq_zero_of_not_pos hn).symm

namespace Span

variable {f : Char → Bool} {t : Text} {i : Nat}

/-- What stands in a text from a column on, as far as it is of a kind. -/
def runFrom (f : Char → Bool) (t : Text) (i : Nat) : Span :=
  ⟨i, i + ((t.drop i).takeWhile f).length⟩

theorem head?_reverse_take (hi : i ≤ t.length) :
    (t.take i).reverse.head?.any f = false ↔ ∀ j, j + 1 = i → t[j]?.any f = false := by
  cases i with
  | zero => simp
  | succ i =>
    rw [List.take_succ_eq_append_getElem hi, List.reverse_append, List.reverse_singleton,
      List.singleton_append, List.head?_cons, ← List.getElem?_eq_getElem hi]
    exact ⟨fun h j hj => Nat.succ.inj hj ▸ h, fun h => h i rfl⟩

theorem drop_runFrom (f : Char → Bool) (t : Text) (i : Nat) :
    t.drop (runFrom f t i).stop = (t.drop i).dropWhile f := by
  have hsplit := List.takeWhile_append_dropWhile (p := f) (l := t.drop i)
  calc t.drop (runFrom f t i).stop
      = (t.drop i).drop ((t.drop i).takeWhile f).length := List.drop_drop.symm
    _ = ((t.drop i).takeWhile f ++ (t.drop i).dropWhile f).drop
          ((t.drop i).takeWhile f).length := by rw [hsplit]
    _ = (t.drop i).dropWhile f := List.drop_left

/-- A run is known by its start. -/
theorem IsRunOf.eq_runFrom {s : Span} (h : s.IsRunOf f t) : runFrom f t s.start = s := by
  have hlen : ((t.drop s.start).takeWhile f).length = s.stop - s.start := by
    have hlt := h.nonempty
    rw [length_takeWhile_iff, List.getElem?_drop, Nat.add_sub_cancel' (Nat.le_of_lt hlt)]
    refine ⟨fun k hk => ?_, h.behind⟩
    rw [List.getElem?_drop]
    exact h.inside _ (Nat.le_add_right _ k) (by omega)
  rw [runFrom, hlen, Nat.add_sub_cancel' (Nat.le_of_lt h.nonempty)]

theorem isRunOf_runFrom (hbefore : ∀ j, j + 1 = i → t[j]?.any f = false)
    (hpos : i < (runFrom f t i).stop) : (runFrom f t i).IsRunOf f t := by
  obtain ⟨hinside, hbehind⟩ :=
    (length_takeWhile_iff (l := t.drop i) (f := f)).mp rfl
  rw [List.getElem?_drop] at hbehind
  refine ⟨hpos, fun j (hij : i ≤ j) (hj : j < i + ((t.drop i).takeWhile f).length) => ?_,
    hbefore, hbehind⟩
  have h := hinside (j - i) (by omega)
  rwa [List.getElem?_drop, Nat.add_sub_cancel' hij] at h

theorem IsRunOf.start_lt {s : Span} (h : s.IsRunOf f t) : s.start < t.length := by
  have hfirst := h.inside s.start (Nat.le_refl _) h.nonempty
  by_contra hge
  rw [List.getElem?_eq_none (Nat.le_of_not_lt hge)] at hfirst
  cases hfirst

end Span

/-! ## Padding -/

theorem isBase64Char_sign : isBase64Char '=' = false := by
  decide +kernel

/-- Whether a span is a run and the padding that belongs to it: up to two signs, as many as follow
the run, without a last one that another run follows. -/
structure Span.IsPadded (t : Text) (run span : Span) : Prop where
  start_eq : span.start = run.start
  stop_ge : run.stop ≤ span.stop
  stop_le : span.stop ≤ run.stop + 2
  signs : Span.text t ⟨run.stop, span.stop⟩ = List.replicate (span.stop - run.stop) '='
  behind : t[span.stop]?.any isBase64Char = false
  greatest : span.stop < run.stop + 2 → t[span.stop]? = some '=' →
    t[span.stop + 1]?.any isBase64Char = true

namespace Span.IsPadded

variable {t rest : Text} {run span : Span} {n : Nat}

theorem of_drop (hn : n ≤ 2) (hdrop : t.drop run.stop = List.replicate n '=' ++ rest)
    (hbehind : rest.head?.any isBase64Char = false)
    (hgreatest : n < 2 → rest.head? = some '=' → rest[1]?.any isBase64Char = true) :
    IsPadded t run ⟨run.start, run.stop + n⟩ := by
  have hrest : t.drop (run.stop + n) = rest := by
    rw [← List.drop_drop, hdrop, List.drop_left' List.length_replicate]
  have hget : ∀ m, t[run.stop + n + m]? = rest[m]? := by
    intro m
    rw [← List.getElem?_drop, hrest]
  have hhead : t[run.stop + n]? = rest.head? := by
    rw [List.head?_eq_getElem?]
    exact hget 0
  refine ⟨rfl, Nat.le_add_right _ n, Nat.add_le_add_left hn _, ?_, ?_, fun hlt hsign => ?_⟩
  · rw [Span.text, Nat.add_sub_cancel_left, hdrop, List.take_left' List.length_replicate]
  · rw [hhead]
    exact hbehind
  · rw [hhead] at hsign
    rw [hget]
    exact hgreatest (Nat.lt_of_add_lt_add_left hlt) hsign

/-- In a span, a sign stands wherever the run is over. -/
theorem getElem?_eq (h : IsPadded t run span) {j : Nat} (hj : run.stop ≤ j)
    (hlt : j < span.stop) : t[j]? = some '=' := by
  have hin : j - run.stop < span.stop - run.stop := Nat.sub_lt_sub_right hj hlt
  calc t[j]? = (Span.text t ⟨run.stop, span.stop⟩)[j - run.stop]? := by
        rw [Span.text, List.getElem?_take_of_lt hin, List.getElem?_drop, Nat.add_sub_cancel' hj]
    _ = some '=' := by rw [h.signs, List.getElem?_replicate_of_lt hin]

/-- No run starts in the span of another. -/
theorem start_eq_of_le (h : IsPadded t run span) (hrun : run.IsRunOf isBase64Char t)
    {other : Span} (ho : other.IsRunOf isBase64Char t) (hle : span.start ≤ other.start)
    (hlt : other.start < span.stop) : span.start = other.start := by
  rw [h.start_eq] at hle ⊢
  have hfirst := ho.inside other.start (Nat.le_refl _) ho.nonempty
  rcases Nat.lt_or_ge other.start run.stop with hin | hout
  · by_contra hne
    have hprev := hrun.inside (other.start - 1) (by omega) (by omega)
    rw [ho.before (other.start - 1) (by omega)] at hprev
    cases hprev
  · rw [h.getElem?_eq hout hlt, Option.any_some, isBase64Char_sign] at hfirst
    cases hfirst

end Span.IsPadded

namespace Pattern

/-- What the pattern does behind the run and the padding: it does not stop before another run. -/
def stopOutside (e : Place) : Option Place :=
  if e.after.head?.any isBase64Char then none else some e

/-- The sign of padding in a pattern that ignores case. -/
def paddingSign : CharClass := { CharClass.single '=' with ignoreCase := true }

theorem accepts_paddingSign (c : Char) : paddingSign.accepts c = (c == '=') :=
  CharClass.accepts_equals c

/-- No padding leads out of a run. -/
theorem run_padding_inside (m : Nat) {b t : Text} {cap : Option Text}
    (ht : t.head?.any isBase64Char = true) :
    (many 0 (some m) true (.one paddingSign)).run ⟨b, t, cap⟩ stopOutside = none := by
  have hself : stopOutside ⟨b, t, cap⟩ = none := if_pos ht
  have hsign : t.head?.any paddingSign.accepts = false := by
    cases t with
    | nil => rfl
    | cons c t =>
      rw [List.head?_cons, Option.any_some] at ht ⊢
      rw [accepts_paddingSign, beq_eq_false_iff_ne]
      rintro rfl
      rw [isBase64Char_sign] at ht
      cases ht
  cases m with
  | zero => rw [run_atMost_zero, hself]
  | succ m => rw [run_atMost_succ, hsign, hself]; rfl

/-- **The padding of a run** is as much as the pattern may take of it. -/
theorem run_padding (m : Nat) {b t : Text} {cap : Option Text}
    (ht : t.head?.any isBase64Char = false) :
    ∃ n rest, n ≤ m ∧ t = List.replicate n '=' ++ rest ∧
      (many 0 (some m) true (.one paddingSign)).run ⟨b, t, cap⟩ stopOutside =
        some ⟨List.replicate n '=' ++ b, rest, cap⟩ ∧
      rest.head?.any isBase64Char = false ∧
      (n < m → rest.head? = some '=' → rest[1]?.any isBase64Char = true) := by
  have hself : ∀ {b t : Text}, t.head?.any isBase64Char = false →
      stopOutside ⟨b, t, cap⟩ = some ⟨b, t, cap⟩ := fun ht => if_neg (by simp [ht])
  induction m generalizing b t with
  | zero => exact ⟨0, t, Nat.le_refl 0, rfl, by rw [run_atMost_zero, hself ht]; rfl, ht, by simp⟩
  | succ m ih =>
    rw [run_atMost_succ, hself ht]
    by_cases hsign : t.head? = some '='
    · obtain ⟨t, rfl⟩ := List.head?_eq_some_iff.mp hsign
      rw [if_pos (by simp [accepts_paddingSign])]
      by_cases hnext : t.head?.any isBase64Char = true
      · refine ⟨0, _, Nat.zero_le _, rfl, ?_, ht, fun _ _ => ?_⟩
        · rw [show Place.next ⟨b, '=' :: t, cap⟩ = ⟨'=' :: b, t, cap⟩ from rfl,
            run_padding_inside m hnext]
          rfl
        · rwa [List.getElem?_cons_succ, ← List.head?_eq_getElem?]
      · obtain ⟨n, rest, hn, rfl, hrun, hbehind, hgreatest⟩ :=
          ih (b := '=' :: b) (Bool.eq_false_iff.mpr hnext)
        refine ⟨n + 1, rest, Nat.succ_le_succ hn, rfl, ?_, hbehind,
          fun hlt => hgreatest (Nat.lt_of_succ_lt_succ hlt)⟩
        rw [show Place.next ⟨b, '=' :: (List.replicate n '=' ++ rest), cap⟩ =
          ⟨'=' :: b, List.replicate n '=' ++ rest, cap⟩ from rfl, hrun, List.replicate_succ',
          List.append_assoc]
        rfl
    · have hother : t.head?.any paddingSign.accepts = false := by
        cases t with
        | nil => rfl
        | cons c t => simpa [accepts_paddingSign] using hsign
      exact ⟨0, t, Nat.zero_le _, rfl, by rw [hother]; rfl, ht, fun _ h => absurd h hsign⟩

/-- Behind a character of base64 no long string starts. -/
theorem run_lookbehind (b t : Text) (k : Continuation) :
    (Pattern.behind true 1 (oneOf base64Chars)).ignoringCase.run ⟨b, t, none⟩ k =
      if b.head?.any isBase64Char then none else k ⟨b, t, none⟩ := by
  cases b with
  | nil => rfl
  | cons c b =>
    have hback : (Place.back? 1 ⟨c :: b, t, none⟩) = some ⟨b, c :: t, none⟩ := rfl
    rw [List.head?_cons, Option.any_some, ← accepts_base64 c]
    simp only [ignoringCase, oneOf, run, hback, Option.bind_some, Place.next]
    by_cases hc : CharClass.accepts { items := base64Chars, ignoreCase := true } c = true
    · simp [hc]
    · simp [hc]

theorem run_lookahead (e : Place) :
    (Pattern.ahead true (oneOf base64Chars)).ignoringCase.run e some = stopOutside e := by
  obtain ⟨b, t, cap⟩ := e
  cases t with
  | nil => rfl
  | cons c t =>
    rw [stopOutside, List.head?_cons, Option.any_some, ← accepts_base64 c]
    simp only [ignoringCase, oneOf, run]
    by_cases hc : CharClass.accepts { items := base64Chars, ignoreCase := true } c = true
    · simp [hc]
    · simp [hc]

/-- A run of the pattern for long strings takes a run of at least forty characters from its start on,
and the padding. -/
theorem run_base64String (b t : Text) :
    base64String.pattern.run ⟨b, t, none⟩ some =
      if b.head?.any isBase64Char then none
      else if 40 ≤ (t.takeWhile isBase64Char).length then
        (many 0 (some 2) true (.one paddingSign)).run
          ⟨(t.takeWhile isBase64Char).reverse ++ b, t.dropWhile isBase64Char, none⟩ stopOutside
      else none := by
  let cls : CharClass := { items := base64Chars, ignoreCase := true }
  have hcls : cls.accepts = isBase64Char := funext accepts_base64
  let k : Continuation := fun e =>
    (many 0 (some 2) true (.one paddingSign)).run e stopOutside
  have hend : (fun e => (many 0 (some 2) true (.one paddingSign)).run e
      fun e => (Pattern.ahead true (oneOf base64Chars)).ignoringCase.run e some) = k := by
    funext e
    exact congrArg _ (funext run_lookahead)
  have hrun : base64String.pattern.run ⟨b, t, none⟩ some =
      (Pattern.behind true 1 (oneOf base64Chars)).ignoringCase.run ⟨b, t, none⟩
        fun e => (atLeast 40 (.one cls)).run e k := hend ▸ rfl
  rw [hrun, run_lookbehind, run_atLeast cls, hcls]
  intro _ front back hsplit hne
  obtain ⟨c, back, rfl⟩ := List.exists_cons_of_ne_nil hne
  have hc : c ∈ t.takeWhile cls.accepts := by simp [hsplit]
  have hinside : isBase64Char c = true := hcls ▸ List.all_eq_true.mp List.all_takeWhile c hc
  exact run_padding_inside 2 hinside

end Pattern

/-! ## Findings -/

section

variable {line : Text} {i : Nat}

/-- **Where a long string is found.** -/
theorem run_base64String_atColumn (hi : i ≤ line.length) {e : Place}
    (h : base64String.pattern.run (.atColumn line i) some = some e) :
    (Span.runFrom isBase64Char line i).IsRunOf isBase64Char line ∧
      i + 40 ≤ (Span.runFrom isBase64Char line i).stop ∧
      Span.IsPadded line (Span.runFrom isBase64Char line i) ⟨i, e.column⟩ := by
  rw [Place.atColumn, run_base64String] at h
  split at h
  · cases h
  · rename_i hbefore
    split at h
    · rename_i hlong
      rw [Bool.not_eq_true, Span.head?_reverse_take hi] at hbefore
      have hstop : i + 40 ≤ (Span.runFrom isBase64Char line i).stop := Nat.add_le_add_left hlong i
      have hrun := Span.isRunOf_runFrom hbefore (by omega)
      obtain ⟨n, rest, hn, hrest, hpad, hother, hgreatest⟩ :=
        run_padding 2 (head?_dropWhile isBase64Char (line.drop i))
      rw [hpad] at h
      cases h
      rw [← Span.drop_runFrom] at hrest
      have hcolumn : Place.column ⟨List.replicate n '=' ++ (((line.drop i).takeWhile
          isBase64Char).reverse ++ (line.take i).reverse), rest, none⟩ =
          (Span.runFrom isBase64Char line i).stop + n := by
        simp only [Place.column, List.length_append, List.length_replicate, List.length_reverse,
          List.length_take, Nat.min_eq_left hi, Span.runFrom]
        omega
      rw [hcolumn]
      exact ⟨hrun, hstop, Span.IsPadded.of_drop hn hrest hother hgreatest⟩
    · cases h

/-- A long run is found. -/
theorem isSome_run_base64String {run : Span} (h : run.IsRunOf isBase64Char line)
    (hlong : run.start + 40 ≤ run.stop) :
    (base64String.pattern.run (.atColumn line run.start) some).isSome = true := by
  have hlen : run.start + ((line.drop run.start).takeWhile isBase64Char).length = run.stop :=
    congrArg Span.stop h.eq_runFrom
  obtain ⟨n, rest, -, -, hpad, -⟩ :=
    run_padding 2 (head?_dropWhile isBase64Char (line.drop run.start))
  rw [Place.atColumn, run_base64String,
    (Span.head?_reverse_take (Nat.le_of_lt h.start_lt)).mpr h.before, if_neg (by simp),
    if_pos (by omega), hpad]
  rfl

end

namespace SecretFinding

/-- **The long strings of a line are its long runs, each with its padding.** The findings are those
of a list of spans, one for each run of at least forty characters of base64, from left to right. -/
theorem base64_findings (content file : Text) {i : Nat} {line : Text}
    (hl : (Text.lines content)[i]? = some line) :
    ∃ runs spans : List Span,
      (detect registry content file).filter
          (fun f => f.rule == base64String.label && f.line == ((i + 1 : Nat) : Int)) =
        spans.map (ofSpan base64String file (i + 1) line) ∧
      (∀ run, run ∈ runs ↔ run.IsRunOf isBase64Char line ∧ run.start + 40 ≤ run.stop) ∧
      runs.Pairwise (fun a b => a.stop ≤ b.start) ∧
      List.Forall₂ (Span.IsPadded line) runs spans := by
  have hr : base64String ∈ registry := by simp [registry]
  obtain ⟨hp, hw⟩ := registry_patterns base64String hr
  have hc := cover_hits hp hw line
  let runOf : Hit → Span := fun hit => Span.runFrom isBase64Char line hit.span.start
  have hfound : ∀ hit ∈ base64String.hits line, (runOf hit).IsRunOf isBase64Char line ∧
      (runOf hit).start + 40 ≤ (runOf hit).stop ∧ Span.IsPadded line (runOf hit) hit.span := by
    intro hit hhit
    obtain ⟨hle, hrun⟩ := run_of_mem_hits hp hw hhit
    exact run_base64String_atColumn hle hrun
  refine ⟨(base64String.hits line).map runOf, (base64String.hits line).map Hit.span,
    filter_detect_line hr content file hl, fun run => ?_, ?_, ?_⟩
  · constructor
    · intro h
      obtain ⟨hit, hhit, rfl⟩ := List.mem_map.mp h
      exact ⟨(hfound hit hhit).1, (hfound hit hhit).2.1⟩
    · rintro ⟨hrun, hlong⟩
      obtain ⟨hit, hhit, hle, hlt⟩ := exists_hit_of_isSome_run hp hw (Nat.le_of_lt hrun.start_lt)
        (isSome_run_base64String hrun hlong)
      have heq := (hfound hit hhit).2.2.start_eq_of_le (hfound hit hhit).1 hrun hle hlt
      refine List.mem_map.mpr ⟨hit, hhit, ?_⟩
      exact (congrArg (Span.runFrom isBase64Char line) heq).trans hrun.eq_runFrom
  · refine List.pairwise_map.mpr (hc.ordered.imp_of_mem fun {a b} ha hb hab => ?_)
    exact Nat.le_trans (hfound a ha).2.2.stop_ge hab
  · rw [List.forall₂_map_left_iff, List.forall₂_map_right_iff, List.forall₂_same]
    exact fun hit hhit => (hfound hit hhit).2.2

/-- A line with two long runs and two signs between them. -/
def twoRunsLine : Text := List.replicate 40 'A' ++ "==".toList ++ List.replicate 40 'b'

/-- Both runs of a line are found, wherever the line stands. -/
theorem base64_findings_twoRuns :
    ∃ runs spans : List Span,
      (detect registry ('\n' :: twoRunsLine) "a.py".toList).filter
          (fun f => f.rule == base64String.label && f.line == ((1 + 1 : Nat) : Int)) =
        spans.map (ofSpan base64String "a.py".toList 2 twoRunsLine) ∧
      ⟨0, 40⟩ ∈ runs ∧ ⟨42, 82⟩ ∈ runs ∧ List.Forall₂ (Span.IsPadded twoRunsLine) runs spans := by
  have hline : (Text.lines ('\n' :: twoRunsLine))[1]? = some twoRunsLine := by decide +kernel
  obtain ⟨runs, spans, hfindings, hruns, -, hpadded⟩ :=
    base64_findings ('\n' :: twoRunsLine) "a.py".toList hline
  have hfirst : Span.runFrom isBase64Char twoRunsLine 0 = ⟨0, 40⟩ := by decide +kernel
  have hsecond : Span.runFrom isBase64Char twoRunsLine 42 = ⟨42, 82⟩ := by decide +kernel
  refine ⟨runs, spans, hfindings, (hruns _).mpr ⟨?_, Nat.le_refl 40⟩,
    (hruns _).mpr ⟨?_, Nat.le_refl 82⟩, hpadded⟩
  · exact hfirst ▸ Span.isRunOf_runFrom (by simp) (by rw [hfirst]; decide)
  · refine hsecond ▸ Span.isRunOf_runFrom (fun j hj => ?_) (by rw [hsecond]; decide)
    obtain rfl : j = 41 := Nat.succ.inj hj
    decide +kernel

/-- The last of two signs is left to the run that follows it. -/
example : (base64String.hits twoRunsLine).map Hit.span = [⟨0, 41⟩, ⟨42, 82⟩] := by
  decide +kernel

end SecretFinding

end EnvAudit
