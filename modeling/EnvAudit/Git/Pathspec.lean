import EnvAudit.Git.Wildcard

/-!
# Pathspecs

How version control reads a path that it is asked about: as a pattern over the names in the index,
with wildcards that cross slashes, and so that a directory stands for all below it. A path that starts
with a colon says first how the rest of it is to be read (`Magic`). Names are compared byte by byte.
-/
namespace EnvAudit.Git

/-! ## Magic -/

/-- How a path is to be read. -/
structure Magic where
  /-- From the top of the work tree, as it is written. -/
  top : Bool := false
  /-- Without wildcards. -/
  literal : Bool := false
  ignoreCase : Bool := false
  /-- All but what it stands for. -/
  exclude : Bool := false
deriving DecidableEq, Repr

namespace Magic

/-- The magic with a word for more of it. Words for reading by attributes or other rules for slashes
are not known here. -/
def add (m : Magic) (word : Text) : Option Magic :=
  if word.isEmpty then some m
  else if word = "top".toList then some { m with top := true }
  else if word = "literal".toList then some { m with literal := true }
  else if word = "icase".toList then some { m with ignoreCase := true }
  else if word = "exclude".toList then some { m with exclude := true }
  else none

/-- The magic in words, which ends at a closing parenthesis, and the path behind it. -/
def long? (t : Text) : Option (Magic × Text) :=
  let inside := t.takeWhile (· != ')')
  if inside.length = t.length then none
  else ((Text.splitOn ',' inside).foldlM add {}).map fun m => (m, t.drop (inside.length + 1))

/-- The signs that stand for no magic, but cannot start a path behind a colon. -/
def unknownSigns : Text := "\"#%&',-;<=>@_`~".toList

/-- The magic in signs, which ends at a colon or at what is no sign, and the path behind it. -/
def short? (m : Magic) : Text → Option (Magic × Text)
  | [] => some (m, [])
  | c :: rest =>
    if c = ':' then some (m, rest)
    else if c = '/' then short? { m with top := true } rest
    else if c = '!' ∨ c = '^' then short? { m with exclude := true } rest
    else if unknownSigns.contains c then none
    else some (m, c :: rest)

/-- The magic that a path starts with, and the path behind it. The empty text is no path. -/
def ofText? : Text → Option (Magic × Text)
  | [] => none
  | ':' :: '(' :: rest => long? rest
  | ':' :: rest => short? {} rest
  | t => some ({}, t)

end Magic

/-! ## Paths -/

/-- A path that is asked about: the directory of the question below the top, which is taken
literally, and what is asked for in it. -/
structure Pathspec where
  fixed : List Text
  rest : List Text
  /-- Whether it ends with a slash. -/
  trailingSlash : Bool
  magic : Magic := {}
deriving DecidableEq, Repr

/-- What the names of all that is in a directory below the top start with. -/
def dirText (dir : List Text) : Text := dir.flatMap (· ++ ['/'])

namespace Pathspec

/-- Takes one step along a path: a dot stays, two dots go up, which fails at the top. -/
def step (s : Pathspec) (part : Text) : Option Pathspec :=
  if part = [] ∨ part = ['.'] then some { s with trailingSlash := true }
  else if part = ['.', '.'] then
    match s.rest.isEmpty, s.fixed.isEmpty with
    | false, _ => some { s with rest := s.rest.dropLast, trailingSlash := true }
    | true, false => some { s with fixed := s.fixed.dropLast, trailingSlash := true }
    | true, true => .none
  else some { s with rest := s.rest ++ [part], trailingSlash := false }

/-- The path that a text asks for in a directory below the top. -/
def ofText? (dir : List Text) (m : Magic) (t : Text) : Option Pathspec :=
  (Text.splitOn '/' t).foldlM step ⟨dir, [], true, m⟩

/-- The path that a text asks for at the top, as it is written. -/
def ofTop (m : Magic) (t : Text) : Pathspec :=
  if t.isEmpty then ⟨[], [], true, m⟩
  else if t.getLast? = some '/' then ⟨[], Text.splitOn '/' t.dropLast, true, m⟩
  else ⟨[], Text.splitOn '/' t, false, m⟩

/-- Whether the path, taken as a pattern, matches a name in the index. -/
def accepts (s : Pathspec) (name : Text) : Bool :=
  let fixed := Utf8.encode (dirText s.fixed)
  let bytes := Utf8.encode name
  let below := bytes.drop fixed.length
  let fold := List.map (foldByte s.magic.ignoreCase)
  let path := Utf8.encode (Text.join ['/'] s.rest)
  let slash := [byteOf '/']
  let pattern := path ++ if s.trailingSlash then slash else []
  fixed.isPrefixOf bytes &&
    (s.rest.isEmpty || (!s.trailingSlash && fold below == fold path) ||
      (fold (path ++ slash)).isPrefixOf (fold below) ||
      (!s.magic.literal && matchWildcards s.magic.ignoreCase
        (wildcards s.magic.ignoreCase pattern) below))

/-- Whether a question that is asked in a directory below the top brings a name up: one that the path
matches, or for a path that excludes, one in the directory that it does not match. -/
def selects (s : Pathspec) (dir : List Text) (name : Text) : Bool :=
  if s.magic.exclude then
    (Utf8.encode (dirText dir)).isPrefixOf (Utf8.encode name) && !s.accepts name
  else s.accepts name

end Pathspec
end EnvAudit.Git
