import EnvAudit.FileTree.Lookup
import EnvAudit.Text.Blank

/-!
# Asking version control

Version control is a program that is asked two questions in a directory: whether it belongs to a
repository, and which names in the index a path stands for. All that is known of it is what it answers.
A path counts as known if there is an answer that is not blank.
-/
namespace EnvAudit.Git

/-- What comes of a question. -/
inductive Reply where
  | printed (t : Text)
  /-- The program ended with an error, or there is none. -/
  | failed
deriving DecidableEq, Repr

/-- Whether something is printed that is not blank. -/
def Reply.isYes : Reply → Bool
  | .printed t => !(Text.strip t).isEmpty
  | .failed => false

/-- Version control, by what it answers in the directory that a path name leads to. -/
structure Program where
  /-- Whether the directory belongs to a repository. -/
  inRepository : PathName → Bool
  /-- The names in the index that a path stands for. -/
  listing : PathName → Text → Reply

namespace Program

/-- Whether a path name leads into a repository. -/
def isRepository (git : Program) (p : PathName) : Except PathProblem Bool :=
  if p.parts.any (·.contains '\x00') then .error .embeddedNull else .ok (git.inRepository p)

/-- Whether version control knows a path, which is asked about in the directory that a path name
leads to. -/
def isTracked (git : Program) (root : PathName) (path : Text) : Except PathProblem Bool :=
  if root.parts.any (·.contains '\x00') || path.contains '\x00' then .error .embeddedNull
  else .ok (git.listing root path).isYes

end Program
end EnvAudit.Git
