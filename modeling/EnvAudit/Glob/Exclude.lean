import EnvAudit.Glob.Segment

/-!
# Exclusion globs

A list of globs says which paths a scan leaves out. A glob without a slash is looked for at every
depth, one with a slash in front only at the top, and one with a slash behind names directories. A
path is also left out if a directory above it is.
-/
namespace EnvAudit.Glob

/-! ## Alternatives in braces -/

/-- The first group of alternatives in braces without braces inside: what stands before it, in it,
and behind it. -/
def braceGroup? : Text → Option (Text × Text × Text)
  | [] => none
  | c :: rest =>
    let body := rest.takeWhile fun d => d != '{' && d != '}'
    if c = '{' ∧ (rest.drop body.length).head? = some '}' then
      some ([], body, rest.drop (body.length + 1))
    else (braceGroup? rest).map fun (head, body, tail) => (c :: head, body, tail)

/-- The globs that a glob with one group of alternatives stands for. -/
def expandBraces (glob : Text) : List Text :=
  match braceGroup? glob with
  | some (head, body, tail) => (Text.splitOn ',' body).map fun option => head ++ option ++ tail
  | none => [glob]

/-! ## Exclusions -/

/-- One glob of an exclusion list. -/
structure Exclusion where
  segments : List Segment
  /-- Whether only directories match. -/
  dirOnly : Bool
deriving DecidableEq, Repr

namespace Exclusion

/-- A text without the slashes at its two ends. -/
def stripSlashes (t : Text) : Text :=
  ((t.dropWhile (· == '/')).reverse.dropWhile (· == '/')).reverse

/-- The exclusion of a glob without alternatives. A glob of slashes alone excludes nothing. -/
def ofText? (glob : Text) : Option Exclusion :=
  let dirOnly := glob.getLast? = some '/' && glob != ['/']
  let anchored := glob.head? = some '/'
  let body := stripSlashes glob
  if body.isEmpty then none
  else
    let segments := (Text.splitOn '/' body).map Segment.ofText
    let segments := if segments.length = 1 && !anchored then .anyDepth :: segments else segments
    some { segments := segments, dirOnly := dirOnly }

/-- The segments as they apply to a file: a trailing pair of stars needs at least one part. -/
def fileSegments (e : Exclusion) : List Segment :=
  if e.segments.getLast? = some .anyDepth then
    e.segments.dropLast ++ [.name (pieces ['*']), .anyDepth]
  else e.segments

/-- Whether the exclusion leaves out the path with these parts. -/
def excludes (e : Exclusion) (parts : List Text) (isDir : Bool) : Bool :=
  let dirParts := if isDir then parts else parts.dropLast
  (!isDir && !e.dirOnly && matchSegments e.fileSegments parts) ||
    (List.range dirParts.length).any fun i => matchSegments e.segments (dirParts.take (i + 1))

end Exclusion

/-- The exclusions that a glob stands for. A backslash counts as a slash. -/
def exclusionsOf (glob : Text) : List Exclusion :=
  (expandBraces (Text.replaceChar '\\' ['/'] glob)).filterMap Exclusion.ofText?

/-- Whether a list of globs leaves out the path with these parts. -/
def excludesParts (globs : List Text) (parts : List Text) (isDir : Bool) : Bool :=
  globs.any fun g => (exclusionsOf g).any fun e => e.excludes parts isDir

/-- Whether a list of globs leaves out a path, which is written with slashes. -/
def excludesPath (globs : List Text) (path : Text) (isDir : Bool) : Bool :=
  excludesParts globs (Text.splitOn '/' path) isDir

/-- More globs leave out more paths. -/
theorem excludesParts_mono {globs globs' : List Text} (h : ∀ g ∈ globs, g ∈ globs')
    {parts : List Text} {isDir : Bool} (hx : excludesParts globs parts isDir = true) :
    excludesParts globs' parts isDir = true := by
  simp only [excludesParts, List.any_eq_true] at *
  obtain ⟨g, hg, he⟩ := hx
  exact ⟨g, h g hg, he⟩

end EnvAudit.Glob
