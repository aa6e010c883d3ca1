import EnvAudit.Glob.Exclude

/-!
# Lists of segments

A list of segments matches a path as a whole, but it can be read piece by piece: two lists behind
each other match what the first and what the second matches, behind each other
(`matchSegments_append`). So two stars beside two stars do nothing, and two stars that are put in
keep all that was matched (`segments_compose`). The list that stands for files where a glob ends in
two stars is read in the same way: what is in front of the stars matches a directory above the file
(`matchSegments_fileSegments`).
-/
namespace EnvAudit.Glob

variable {g : List Piece} {rest ps qs : List Segment} {parts : List Text}

/-! ## One segment after the other -/

theorem matchSegments_nil : matchSegments [] parts = true ↔ parts = [] := by
  rw [matchSegments, List.isEmpty_iff]

theorem matchSegments_anyDepth : matchSegments (.anyDepth :: rest) parts = true ↔
    ∃ front back, parts = front ++ back ∧ matchSegments rest back = true := anyTail_iff

theorem matchSegments_name_cons {p : Text} : matchSegments (.name g :: rest) (p :: parts) = true ↔
    matchPieces g p = true ∧ matchSegments rest parts = true := by
  rw [matchSegments, matchesWhole_eq, Bool.and_eq_true]

theorem matchSegments_name : matchSegments (.name g :: rest) parts = true ↔
    ∃ p back, parts = p :: back ∧ matchPieces g p = true ∧ matchSegments rest back = true := by
  constructor
  · intro h
    cases parts with
    | nil => cases h
    | cons p parts => exact ⟨p, parts, rfl, matchSegments_name_cons.mp h⟩
  · rintro ⟨p, back, rfl, h⟩
    exact matchSegments_name_cons.mpr h

/-! ## One list after the other -/

/-- Two lists behind each other match what they match, behind each other. -/
theorem matchSegments_append : matchSegments (ps ++ qs) parts = true ↔
    ∃ front back, parts = front ++ back ∧ matchSegments ps front = true ∧
      matchSegments qs back = true := by
  -- the first list takes its parts from the front, so the induction is on it, for every path
  induction ps generalizing parts with
  | nil =>
    rw [List.nil_append]
    constructor
    · intro h
      exact ⟨[], parts, rfl, matchSegments_nil.mpr rfl, h⟩
    · rintro ⟨front, back, rfl, hfront, hback⟩
      rw [matchSegments_nil] at hfront
      rwa [hfront]
  | cons s ps ih =>
    rw [List.cons_append]
    cases s with
    | anyDepth =>
      simp only [matchSegments_anyDepth, ih]
      constructor
      · rintro ⟨skipped, _, rfl, front, back, rfl, hfront, hback⟩
        refine ⟨skipped ++ front, back, ?_, ⟨skipped, front, rfl, hfront⟩, hback⟩
        exact (List.append_assoc ..).symm
      · rintro ⟨_, back, rfl, ⟨skipped, front, rfl, hfront⟩, hback⟩
        refine ⟨skipped, front ++ back, ?_, front, back, rfl, hfront, hback⟩
        exact List.append_assoc ..
    | name g =>
      simp only [matchSegments_name, ih]
      constructor
      · rintro ⟨p, _, rfl, hp, front, back, rfl, hfront, hback⟩
        exact ⟨p :: front, back, rfl, ⟨p, front, rfl, hp, hfront⟩, hback⟩
      · rintro ⟨_, back, rfl, ⟨p, front, rfl, hp, hfront⟩, hback⟩
        exact ⟨p, front ++ back, rfl, hp, front, back, rfl, hfront, hback⟩

/-- A list that matches more can take the place of another, whatever is around it. -/
theorem matchSegments_mono {s s' : List Segment}
    (h : ∀ parts, matchSegments s parts = true → matchSegments s' parts = true)
    (hm : matchSegments (ps ++ (s ++ qs)) parts = true) :
    matchSegments (ps ++ (s' ++ qs)) parts = true := by
  obtain ⟨front, _, rfl, hfront, hbehind⟩ := matchSegments_append.mp hm
  obtain ⟨mid, back, rfl, hmid, hback⟩ := matchSegments_append.mp hbehind
  have hbehind' : matchSegments (s' ++ qs) (mid ++ back) = true :=
    matchSegments_append.mpr ⟨mid, back, rfl, h mid hmid, hback⟩
  exact matchSegments_append.mpr ⟨front, mid ++ back, rfl, hfront, hbehind'⟩

/-! ## Two stars -/

/-- Two stars at the end match whatever is left. -/
theorem matchSegments_anyDepth_nil : matchSegments [.anyDepth] parts = true :=
  matchSegments_anyDepth.mpr ⟨parts, [], (List.append_nil parts).symm, rfl⟩

/-- However often they are repeated, they match whatever is left. -/
theorem matchSegments_replicate_anyDepth (n : Nat) :
    matchSegments (List.replicate (n + 1) .anyDepth) parts = true := by
  induction n with
  | zero => exact matchSegments_anyDepth_nil
  | succ n ih =>
    rw [List.replicate_succ]
    exact matchSegments_anyDepth.mpr ⟨[], parts, rfl, ih⟩

/-- A star matches every part. -/
theorem matchPieces_star (p : Text) : matchPieces (pieces ['*']) p = true :=
  anyTail_iff.mpr ⟨p, [], (List.append_nil p).symm, rfl⟩

/-- A star and two stars match what is left if it is anything. -/
theorem matchSegments_star_anyDepth :
    matchSegments [.name (pieces ['*']), .anyDepth] parts = true ↔ parts ≠ [] := by
  cases parts with
  | nil => simp [matchSegments]
  | cons p parts => simp [matchSegments_name_cons, matchPieces_star, matchSegments_anyDepth_nil]

/-- Where a glob ends in two stars, the files that it matches are those below what is matched in
front of the stars. -/
theorem matchSegments_fileSegments (dirOnly : Bool) :
    matchSegments (Exclusion.fileSegments ⟨ps ++ [.anyDepth], dirOnly⟩) parts = true ↔
      ∃ front back, parts = front ++ back ∧ matchSegments ps front = true ∧ back ≠ [] := by
  have hfile : Exclusion.fileSegments ⟨ps ++ [.anyDepth], dirOnly⟩ =
      ps ++ [.name (pieces ['*']), .anyDepth] := by
    simp [Exclusion.fileSegments]
  simp only [hfile, matchSegments_append, matchSegments_star_anyDepth]

/-- **Segments are matched piece by piece.** Two lists behind each other match a path exactly if it
can be cut into a front that the first matches and a back that the second matches. So any number of
two stars behind each other match what two stars alone do, wherever they stand, and two stars that
are put in between keep every path that was matched. -/
theorem segments_compose (ps qs : List Segment) (parts : List Text) :
    (matchSegments (ps ++ qs) parts = true ↔
      ∃ front back, parts = front ++ back ∧ matchSegments ps front = true ∧
        matchSegments qs back = true) ∧
      (∀ n, matchSegments (ps ++ (List.replicate (n + 1) .anyDepth ++ qs)) parts =
        matchSegments (ps ++ .anyDepth :: qs) parts) ∧
      (matchSegments (ps ++ qs) parts = true →
        matchSegments (ps ++ .anyDepth :: qs) parts = true) := by
  refine ⟨matchSegments_append, fun n => ?_, fun h => ?_⟩
  · -- both lists of stars match every path, so each can take the place of the other
    rw [Bool.eq_iff_iff]
    change _ ↔ matchSegments (ps ++ ([.anyDepth] ++ qs)) parts = true
    constructor
    · exact matchSegments_mono fun _ _ => matchSegments_anyDepth_nil
    · exact matchSegments_mono fun _ _ => matchSegments_replicate_anyDepth n
  · change matchSegments (ps ++ ([] ++ qs)) parts = true at h
    change matchSegments (ps ++ ([.anyDepth] ++ qs)) parts = true
    exact matchSegments_mono (fun _ _ => matchSegments_anyDepth_nil) h

/-- Two stars that are put in keep a file that was matched without them. -/
theorem segments_compose_source :
    matchSegments (["src", "**", "*.js"].map fun s => Segment.ofText s.toList)
      ["src".toList, "a.js".toList] = true := by
  have h := segments_compose [Segment.ofText "src".toList] [Segment.ofText "*.js".toList]
    ["src".toList, "a.js".toList]
  exact h.2.2 (by decide)

end EnvAudit.Glob
