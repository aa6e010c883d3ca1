import EnvAudit.Secret.Finding

/-!
# Risk

One verdict for a whole scan, from the number of findings of each confidence and the number of
environment files under version control. One sure finding or one committed file is critical. Main
statement: `overall_mono`, more evidence never lowers the verdict.
-/
namespace EnvAudit

/-- How many findings there are of each confidence. -/
structure SeverityCounts where
  high : Int
  medium : Int
  low : Int
deriving DecidableEq, Repr

namespace SeverityCounts

/-- No findings. -/
def zero : SeverityCounts := ⟨0, 0, 0⟩

/-- One more finding. -/
def add (c : SeverityCounts) : Confidence → SeverityCounts
  | .high => { c with high := c.high + 1 }
  | .medium => { c with medium := c.medium + 1 }
  | .low => { c with low := c.low + 1 }

/-- The findings counted by confidence. -/
def ofFindings (findings : List SecretFinding) : SeverityCounts :=
  findings.foldl (fun c f => c.add f.confidence) zero

/-- The number of findings of a confidence. -/
def countOf (c : Confidence) (fs : List SecretFinding) : Int := fs.countP (·.confidence == c)

theorem ofFindings_eq (fs : List SecretFinding) :
    ofFindings fs = ⟨countOf .high fs, countOf .medium fs, countOf .low fs⟩ := by
  have hfold : ∀ (fs : List SecretFinding) (c : SeverityCounts),
      fs.foldl (fun c f => c.add f.confidence) c =
        ⟨c.high + countOf .high fs, c.medium + countOf .medium fs, c.low + countOf .low fs⟩ := by
    intro fs
    induction fs with
    | nil => simp [countOf]
    | cons f fs ih =>
      intro c
      rw [List.foldl_cons, ih]
      simp only [countOf, List.countP_cons]
      cases f.confidence <;> simp [add] <;> omega
  rw [ofFindings, hfold]
  simp [zero]

/-- Every finding counts once. -/
theorem countOf_add (fs : List SecretFinding) :
    countOf .high fs + countOf .medium fs + countOf .low fs = fs.length := by
  induction fs with
  | nil => rfl
  | cons f fs ih =>
    simp only [countOf, List.countP_cons, List.length_cons] at ih ⊢
    cases f.confidence <;> simp <;> omega

theorem countOf_nonneg (c : Confidence) (fs : List SecretFinding) : 0 ≤ countOf c fs :=
  Int.natCast_nonneg _

theorem countOf_le {c : Confidence} {fs gs : List SecretFinding} (h : fs.Sublist gs) :
    countOf c fs ≤ countOf c gs := Int.ofNat_le.mpr h.countP_le

/-- Counts as data. -/
def toData (c : SeverityCounts) : Data :=
  .map [(.text "high".toList, .int c.high), (.text "medium".toList, .int c.medium),
    (.text "low".toList, .int c.low)]

open Checked in
/-- Counts read from data. -/
def ofData (d : Data) (c : Coercion := .lenient) : Checked SeverityCounts :=
  record d <|
    start SeverityCounts.mk
      |>.ap (optional "high" 0 c.int d)
      |>.ap (optional "medium" 0 c.int d)
      |>.ap (optional "low" 0 c.int d)

end SeverityCounts

/-- The verdict on a scan. -/
inductive RiskLevel where
  | none
  | low
  | medium
  | high
  | critical
deriving DecidableEq, Repr

namespace RiskLevel

/-- All verdicts, from the mildest. -/
def all : List RiskLevel := [none, low, medium, high, critical]

/-- The place of a verdict among all, from 0. -/
def rank : RiskLevel → Nat
  | .none => 0
  | .low => 1
  | .medium => 2
  | .high => 3
  | .critical => 4

/-- The name of a verdict. -/
def name : RiskLevel → Text
  | .none => "none".toList
  | .low => "low".toList
  | .medium => "medium".toList
  | .high => "high".toList
  | .critical => "critical".toList

/-- The verdict of a name. -/
def ofName? (t : Text) : Option RiskLevel := all.find? fun r => r.name == t

theorem ofName?_name (r : RiskLevel) : ofName? r.name = some r := by cases r <;> decide

instance : LE RiskLevel := ⟨fun a b => a.rank ≤ b.rank⟩

instance : LT RiskLevel := ⟨fun a b => a.rank < b.rank⟩

instance (a b : RiskLevel) : Decidable (a ≤ b) := inferInstanceAs (Decidable (a.rank ≤ b.rank))

instance (a b : RiskLevel) : Decidable (a < b) := inferInstanceAs (Decidable (a.rank < b.rank))

theorem le_def {a b : RiskLevel} : a ≤ b ↔ a.rank ≤ b.rank := Iff.rfl

/-- Verdicts from the mildest to the gravest. -/
def sort (levels : List RiskLevel) : List RiskLevel := levels.mergeSort fun a b => a ≤ b

/-- The graver of two verdicts. -/
def max (a b : RiskLevel) : RiskLevel := if a < b then b else a

/-- The milder of two verdicts. -/
def min (a b : RiskLevel) : RiskLevel := if b < a then b else a

/-! ## The verdict -/

/-- More findings of medium confidence than this make the verdict high. -/
def mediumForHigh : Int := 3

/-- More findings of low confidence than this make the verdict medium. -/
def lowForMedium : Int := 5

/-- The verdict from the counts and the number of committed environment files: the first rule that
applies decides. -/
def overall (counts : SeverityCounts) (committed : Int) : RiskLevel :=
  if 0 < counts.high ∨ 0 < committed then .critical
  else if mediumForHigh < counts.medium then .high
  else if 0 < counts.medium ∨ lowForMedium < counts.low then .medium
  else if 0 < counts.low then .low
  else .none

theorem overall_eq_critical_iff {c : SeverityCounts} {n : Int} :
    overall c n = .critical ↔ 0 < c.high ∨ 0 < n := by
  unfold overall
  by_cases h : 0 < c.high ∨ 0 < n
  · rw [if_pos h]
    exact iff_of_true rfl h
  · rw [if_neg h]
    refine iff_of_false ?_ h
    repeat' split
    all_goals decide

theorem overall_eq_none_iff {c : SeverityCounts} {n : Int} :
    overall c n = .none ↔ c.high ≤ 0 ∧ c.medium ≤ 0 ∧ c.low ≤ 0 ∧ n ≤ 0 := by
  unfold overall mediumForHigh lowForMedium
  constructor
  · intro h
    repeat' split at h
    all_goals first
      | omega
      | cases h
  · rintro ⟨hhigh, hmedium, hlow, hn⟩
    rw [if_neg (by omega), if_neg (by omega), if_neg (by omega), if_neg (by omega)]

/-- More evidence never lowers the verdict. -/
theorem overall_mono {c d : SeverityCounts} {m n : Int} (high : c.high ≤ d.high)
    (medium : c.medium ≤ d.medium) (low : c.low ≤ d.low) (committed : m ≤ n) :
    overall c m ≤ overall d n := by
  unfold overall mediumForHigh lowForMedium
  rw [le_def]
  split <;> rename_i h₁
  · refine Nat.le_of_eq ?_
    rw [if_pos (by omega)]
  split <;> rename_i h₂
  · split
    · decide
    · refine Nat.le_of_eq ?_
      rw [if_pos (by omega)]
  split <;> rename_i h₃
  · split
    · decide
    split
    · decide
    · refine Nat.le_of_eq ?_
      rw [if_pos (by omega)]
  split <;> rename_i h₄
  · repeat' split
    all_goals first
      | decide
      | omega
  · exact Nat.zero_le _

end RiskLevel
end EnvAudit
