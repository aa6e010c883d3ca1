import EnvAudit.Pattern.Basic

/-!
# Searching a line

Matching is backtracking: a pattern tries its ways in order of preference, and the first way that
lets the rest of the pattern match too is the match. A search takes the leftmost place with a match
and goes on behind it, so that hits never overlap.

`ways` lists every way in order of preference; it says what `run` looks for without saying how.
-/
namespace EnvAudit

/-- What to do with the place that a pattern reaches. -/
abbrev Continuation := Place → Option Place

/-- Takes characters of the class while it may, at most `limit` of them. Yields how many were
taken and what is before and after then. -/
def takeRun (cls : CharClass) : Option Nat → Nat → Text → Text → Nat × Text × Text
  | _, n, before, [] => (n, before, [])
  | limit, n, before, c :: rest =>
    if limit != some 0 && cls.accepts c then
      takeRun cls (limit.map (· - 1)) (n + 1) (c :: before) rest
    else (n, before, c :: rest)

/-- Tries the place, then the places up to `n` characters back, the farthest last. -/
def tryBackwards (k : Continuation) : Nat → Place → Option Place
  | 0, s => k s
  | n + 1, s =>
    match k s with
    | some e => some e
    | none => tryBackwards k n s.back

/-- Tries the place, then the places up to `n` characters of the class on. -/
def tryForwards (cls : CharClass) (k : Continuation) : Nat → Place → Option Place
  | 0, s => k s
  | n + 1, s =>
    match k s with
    | some e => some e
    | none => tryForwards cls k n s.next

/-- A run of characters of one class, then `k`. -/
def runOfClass (cls : CharClass) (lo : Nat) (hi : Option Nat) (greedy : Bool) (s : Place)
    (k : Continuation) : Option Place :=
  let (n, before, after) := takeRun cls hi 0 s.before s.after
  if n < lo then none
  else if greedy then tryBackwards k (n - lo) { s with before := before, after := after }
  else tryForwards cls k (n - lo) (Nat.repeat Place.next lo s)

/-- Exactly `n` times `m`, then `k`. -/
def runTimes (m : Place → Continuation → Option Place) : Nat → Place → Continuation → Option Place
  | 0, s, k => k s
  | n + 1, s, k => m s fun e => runTimes m n e k

/-- Up to `n` more times `m`, then `k`. A repetition that consumes nothing is the last. -/
def runMore (m : Place → Continuation → Option Place) (greedy : Bool) :
    Nat → Place → Continuation → Option Place
  | 0, s, k => k s
  | n + 1, s, k =>
    let again := fun (_ : Unit) =>
      m s fun e => if e.after.length < s.after.length then runMore m greedy n e k else k e
    if greedy then
      match again () with
      | some e => some e
      | none => k s
    else
      match k s with
      | some e => some e
      | none => again ()

/-- Whether the text starts with the given characters; the rest of the text if so. -/
def dropText? (ignoreCase : Bool) : Text → Place → Option Place
  | [], s => some s
  | d :: ds, s =>
    match s.after with
    | c :: _ =>
      if ({ items := [.char d], ignoreCase := ignoreCase } : CharClass).accepts c then
        dropText? ignoreCase ds s.next
      else none
    | [] => none

namespace Pattern

/-- Matches the pattern from the place on and then `k`; yields the place that `k` reached. -/
def run : Pattern → Place → Continuation → Option Place
  | .empty, s, k => k s
  | .one cls, s, k =>
    match s.after with
    | c :: _ => if cls.accepts c then k s.next else none
    | [] => none
  | .seq p q, s, k => run p s fun e => run q e k
  | .alt p q, s, k =>
    match run p s k with
    | some e => some e
    | none => run q s k
  | .many lo hi greedy p, s, k =>
    match p with
    | .one cls => runOfClass cls lo hi greedy s k
    | _ =>
      runTimes (run p) lo s fun e =>
        runMore (run p) greedy ((hi.map (· - lo)).getD (e.after.length + 1)) e k
  | .group p, s, k => run p s fun e => k { e with captured := some (s.textTo e) }
  | .again ignoreCase, s, k =>
    match s.captured with
    | none => none
    | some t =>
      match dropText? ignoreCase t s with
      | some e => k e
      | none => none
  | .anchor a, s, k => if a.holds s then k s else none
  | .ahead negated p, s, k =>
    match run p s some with
    | some e => if negated then none else k { s with captured := e.captured }
    | none => if negated then k s else none
  | .behind negated width p, s, k =>
    match (s.back? width).bind fun b => run p b some with
    | some e => if negated then none else k { s with captured := e.captured }
    | none => if negated then k s else none
  | .atomic p, s, k =>
    match run p s some with
    | some e => k e
    | none => none
  | .ifGroup p q, s, k => if s.captured.isSome then run p s k else run q s k

end Pattern

/-- An occurrence of a pattern: where it starts and where it ends. -/
structure Hit where
  start : Place
  stop : Place
deriving DecidableEq, Repr

namespace Hit

/-- The column of the first matched character. -/
def column (h : Hit) : Nat := h.start.column

/-- The matched text. -/
def text (h : Hit) : Text := h.start.textTo h.stop

/-- Whether nothing was matched. -/
def isEmpty (h : Hit) : Bool := h.text.isEmpty

end Hit

namespace Pattern

/-- The first hit at or behind a place. With `mustMove`, a hit at the place itself may not be
empty. -/
def find? (p : Pattern) : Bool → Text → Text → Option Hit
  | mustMove, before, after =>
    let s : Place := { before := before, after := after }
    let stop := p.run s fun e =>
      if mustMove && e.after.length == s.after.length then none else some e
    match stop, after with
    | some e, _ => some ⟨s, e⟩
    | none, [] => none
    | none, c :: rest => find? p false (c :: before) rest
termination_by structural _ _ after => after

/-- The hits from a place on. After an empty hit the next one at the same place must move. -/
def hitsFrom (p : Pattern) : Nat → Bool → Place → List Hit
  | 0, _, _ => []
  | fuel + 1, mustMove, s =>
    match p.find? mustMove s.before s.after with
    | none => []
    | some h =>
      h :: hitsFrom p fuel h.isEmpty { before := h.stop.before, after := h.stop.after }

/-- The hits of a pattern in a line, left to right and without overlap. Each hit ends behind the
one before it or is the one non-empty hit after an empty one, which bounds their number. -/
def hits (p : Pattern) (line : Text) : List Hit :=
  p.hitsFrom (2 * line.length + 2) false (.start line)

/-! ## Ways to match -/

/-- Every way to repeat `m` exactly `n` times. -/
def waysTimes (m : Place → List Place) : Nat → Place → List Place
  | 0, s => [s]
  | n + 1, s => (m s).flatMap (waysTimes m n)

/-- Every way to repeat `m` up to `n` more times. -/
def waysMore (m : Place → List Place) (greedy : Bool) : Nat → Place → List Place
  | 0, s => [s]
  | n + 1, s =>
    let more := (m s).flatMap fun e =>
      if e.after.length < s.after.length then waysMore m greedy n e else [e]
    if greedy then more ++ [s] else s :: more

/-- The places a pattern can reach from a place, the preferred first. -/
def ways : Pattern → Place → List Place
  | .empty, s => [s]
  | .one cls, s => if s.after.head?.any cls.accepts then [s.next] else []
  | .seq p q, s => (ways p s).flatMap (ways q)
  | .alt p q, s => ways p s ++ ways q s
  | .many lo hi greedy p, s =>
    (waysTimes (ways p) lo s).flatMap fun e =>
      waysMore (ways p) greedy ((hi.map (· - lo)).getD (e.after.length + 1)) e
  | .group p, s => (ways p s).map fun e => { e with captured := some (s.textTo e) }
  | .again ignoreCase, s => (s.captured.bind fun t => dropText? ignoreCase t s).toList
  | .anchor a, s => if a.holds s then [s] else []
  | .ahead negated p, s =>
    match (ways p s).head? with
    | some e => if negated then [] else [{ s with captured := e.captured }]
    | none => if negated then [s] else []
  | .behind negated width p, s =>
    match (s.back? width).bind fun b => (ways p b).head? with
    | some e => if negated then [] else [{ s with captured := e.captured }]
    | none => if negated then [s] else []
  | .atomic p, s => (ways p s).head?.toList
  | .ifGroup p q, s => if s.captured.isSome then ways p s else ways q s

end Pattern
end EnvAudit
