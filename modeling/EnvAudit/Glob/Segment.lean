import EnvAudit.Pattern.CharClass

/-!
# Glob segments

The part of a glob between two slashes. It is matched against one part of a path: a star stands for
any run of characters, a question mark for any one, and brackets for one of a set, with `!` in front
for one outside it. An opening bracket without a closing one stands for itself.
-/
namespace EnvAudit.Glob

/-- A piece of a glob segment. -/
inductive Piece where
  | star
  | one (cls : CharClass)
  /-- A set without characters, which nothing matches. -/
  | never
deriving DecidableEq, Repr

/-! ## Sets in brackets -/

/-- A character of a set in brackets, or a hyphen that makes a range of its two neighbours. -/
inductive SetMark where
  | char (c : Char)
  | range
deriving DecidableEq, Repr

/-- The body of a set cut at the hyphens that make ranges. A hyphen makes a range only if it is
at least `offset` characters on, and after a range at least one character comes before the next. -/
def chunksFrom : Nat → Nat → Text → Text → List Text
  | 0, _, done, rest => [done.reverse ++ rest]
  | _ + 1, _, done, [] => [done.reverse]
  | fuel + 1, offset, done, c :: rest =>
    if c = '-' ∧ offset = 0 then
      match rest with
      | [] => [(c :: done).reverse]
      | _ => done.reverse :: chunksFrom fuel 2 [] rest
    else chunksFrom fuel (offset - 1) (c :: done) rest

/-- The chunks between the hyphens of a set. -/
def chunks (body : Text) : List Text :=
  chunksFrom (body.length + 1) (if body.head? = some '!' then 2 else 1) [] body

/-- Joins a chunk with what follows, from the end on: two chunks whose range would be empty lose
its two ends and become one. -/
def joinChunk (chunk : Text) : List Text → List Text
  | [] => [chunk]
  | next :: rest =>
    match chunk.getLast?, next with
    | some last, first :: tail =>
      if first.toNat < last.toNat then (chunk.dropLast ++ tail) :: rest else chunk :: next :: rest
    | _, _ => chunk :: next :: rest

/-- The chunks without empty ranges, with a mark where two chunks make a range. -/
def marks (body : Text) : List SetMark :=
  match (chunks body).foldr joinChunk [] with
  | [] => []
  | first :: rest => first.map .char ++ rest.flatMap fun chunk => .range :: chunk.map .char

/-- The items of a set from its marks. A range mark without a character before it is a hyphen. -/
def itemsOf : List SetMark → List ClassItem
  | [] => []
  | .char a :: .range :: .char b :: rest => .range a b :: itemsOf rest
  | .char a :: rest => .char a :: itemsOf rest
  | .range :: rest => .char '-' :: itemsOf rest

/-- The piece for a set in brackets. -/
def setPiece (body : Text) : Piece :=
  match marks body with
  | [] => .never
  | .char '!' :: rest => .one { items := itemsOf rest, negated := true }
  | ms => .one { items := itemsOf ms }

/-- The body of a set behind its opening bracket, and what follows its closing one. A closing
bracket in first place, or behind a first `!`, is a character of the set. -/
def setBody? (t : Text) : Option (Text × Text) :=
  let bang := if t.head? = some '!' then 1 else 0
  let first := if (t.drop bang).head? = some ']' then bang + 1 else bang
  let body := t.take first ++ (t.drop first).takeWhile (· != ']')
  match t.drop body.length with
  | ']' :: rest => some (body, rest)
  | _ => none

/-! ## Reading and matching -/

/-- The pieces of a glob segment. -/
def piecesFrom : Nat → Text → List Piece
  | 0, _ => []
  | _ + 1, [] => []
  | fuel + 1, '*' :: rest => .star :: piecesFrom fuel rest
  | fuel + 1, '?' :: rest => .one { items := [], negated := true } :: piecesFrom fuel rest
  | fuel + 1, '[' :: rest =>
    match setBody? rest with
    | some (body, rest) => setPiece body :: piecesFrom fuel rest
    | none => .one (.single '[') :: piecesFrom fuel rest
  | fuel + 1, c :: rest => .one (.single c) :: piecesFrom fuel rest

/-- The pieces of a glob segment; each takes at least one character of it. -/
def pieces (t : Text) : List Piece := piecesFrom t.length t

/-- Whether a test holds of the list or of what is left of it after dropping some of its start. -/
def anyTail {α : Type} (test : List α → Bool) : List α → Bool
  | [] => test []
  | a :: rest => test (a :: rest) || anyTail test rest

theorem anyTail_iff {α : Type} {test : List α → Bool} {xs : List α} :
    anyTail test xs = true ↔ ∃ ys zs, xs = ys ++ zs ∧ test zs = true := by
  induction xs with
  | nil =>
    constructor
    · intro h
      exact ⟨[], [], rfl, h⟩
    · rintro ⟨ys, zs, h, ht⟩
      obtain ⟨rfl, rfl⟩ := List.append_eq_nil_iff.mp h.symm
      exact ht
  | cons a xs ih =>
    simp only [anyTail, Bool.or_eq_true, ih]
    constructor
    · rintro (h | ⟨ys, zs, rfl, h⟩)
      · exact ⟨[], a :: xs, rfl, h⟩
      · exact ⟨a :: ys, zs, rfl, h⟩
    · rintro ⟨ys, zs, h, ht⟩
      cases ys with
      | nil => exact .inl (h ▸ ht)
      | cons y ys =>
        exact .inr ⟨ys, zs, (List.cons.inj h).2, ht⟩

/-- Whether the pieces match a text from start to end. -/
def matchPieces : List Piece → Text → Bool
  | [], t => t.isEmpty
  | .star :: ps, t => anyTail (matchPieces ps) t
  | .one cls :: ps, c :: t => cls.accepts c && matchPieces ps t
  | .one _ :: _, [] => false
  | .never :: _, _ => false

/-! ## Matching without asking twice

Asked piece by piece for every tail of the text at once, no question comes up a second time, however
many stars there are. -/

/-- The tails of a list, from the list itself to the empty one. -/
def tails {α : Type} : List α → List (List α)
  | [] => [[]]
  | a :: rest => (a :: rest) :: tails rest

/-- For each of the answers, whether it or one behind it is yes. -/
def anyBehind : List Bool → List Bool
  | [] => []
  | b :: rest =>
    match anyBehind rest with
    | [] => [b]
    | a :: more => (b || a) :: a :: more

/-- For each tail of a text, whether it starts with a character of the class and the answer for
what is behind that is yes. -/
def acceptsThen (cls : CharClass) : Text → List Bool → List Bool
  | c :: t, _ :: b :: answers => (cls.accepts c && b) :: acceptsThen cls t (b :: answers)
  | _, _ => [false]

/-- For each tail of a text, whether the pieces match it. -/
def matchTails : List Piece → Text → List Bool
  | [], t => (tails t).map (·.isEmpty)
  | .star :: ps, t => anyBehind (matchTails ps t)
  | .one cls :: ps, t => acceptsThen cls t (matchTails ps t)
  | .never :: _, t => (tails t).map fun _ => false

theorem tails_eq_cons {α : Type} (xs : List α) : tails xs = xs :: (tails xs).tail := by
  cases xs <;> rfl

theorem anyBehind_tails {α : Type} (test : List α → Bool) (xs : List α) :
    anyBehind ((tails xs).map test) = (tails xs).map (anyTail test) := by
  induction xs with
  | nil => rfl
  | cons a xs ih =>
    rw [tails, List.map_cons, List.map_cons, anyBehind, ih, tails_eq_cons xs]
    rfl

theorem acceptsThen_tails (cls : CharClass) (test : Text → Bool) (t : Text) :
    acceptsThen cls t ((tails t).map test) = (tails t).map fun
      | [] => false
      | c :: rest => cls.accepts c && test rest := by
  induction t with
  | nil => rfl
  | cons c t ih =>
    rw [tails, List.map_cons, List.map_cons, ← ih, tails_eq_cons t]
    rfl

theorem matchTails_eq (ps : List Piece) (t : Text) :
    matchTails ps t = (tails t).map (matchPieces ps) := by
  induction ps with
  | nil => rfl
  | cons p ps ih =>
    cases p with
    | star => rw [matchTails, ih, anyBehind_tails]; rfl
    | one cls =>
      rw [matchTails, ih, acceptsThen_tails]
      refine List.map_congr_left fun u _ => ?_
      cases u <;> rfl
    | never => rfl

/-- Whether the pieces match the whole text. -/
def matchesWhole (ps : List Piece) (t : Text) : Bool := (matchTails ps t).head?.getD false

theorem matchesWhole_eq (ps : List Piece) (t : Text) : matchesWhole ps t = matchPieces ps t := by
  rw [matchesWhole, matchTails_eq, tails_eq_cons]
  rfl

/-! ## Segments -/

/-- A segment of a glob. -/
inductive Segment where
  /-- Two stars, which stand for any number of parts. -/
  | anyDepth
  | name (pieces : List Piece)
deriving DecidableEq, Repr

/-- The segment that a text writes. -/
def Segment.ofText (t : Text) : Segment :=
  if t = ['*', '*'] then .anyDepth else .name (pieces t)

/-- Whether segments match the parts of a path from first to last. -/
def matchSegments : List Segment → List Text → Bool
  | [], parts => parts.isEmpty
  | .anyDepth :: rest, parts => anyTail (matchSegments rest) parts
  | .name g :: rest, p :: parts => matchesWhole g p && matchSegments rest parts
  | .name _ :: _, [] => false

end EnvAudit.Glob
