import EnvAudit.Pattern.Reader
import EnvAudit.Pattern.Search

/-!
# Reading an environment variable

The forms in which program text reads an environment variable, each a pattern whose group captures
the variable's name. The names of variables are in capitals, and case matters everywhere.
-/
namespace EnvAudit

/-- One form of reading an environment variable; the group of its pattern captures the name. -/
structure AccessRule where
  pattern : Pattern
deriving Repr

namespace AccessRule

open Pattern

/-- The columns and names of the variables that the form reads in a line. A capture that is absent
or empty is no name. -/
def names (rule : AccessRule) (line : Text) : List (Nat × Text) :=
  (rule.pattern.hits line).filterMap fun hit =>
    match hit.stop.captured with
    | some (c :: rest) => some (hit.column, c :: rest)
    | _ => none

/-- Why a text is no form of reading a variable. -/
inductive Problem where
  | unreadable (fault : PatternFault)
  /-- It has not exactly one group, or the group has not the name it must have. -/
  | noSingleName
deriving DecidableEq, Repr

/-- The form that a written pattern describes: it must have exactly one group, which has the
name `name`. -/
def ofText (t : Text) : Except Problem AccessRule :=
  match Pattern.read t with
  | .error fault => .error (.unreadable fault)
  | .ok written =>
    if written.groupNames = [some "name".toList] then .ok ⟨written.pattern⟩
    else .error .noSingleName

/-- The message for a text that is no form of reading a variable. -/
def Problem.message (t : Text) : Problem → Text
  | .unreadable fault => fault.message t
  | .noSingleName =>
    "Env access rule ".toList ++ Text.quoted t ++
      " must have exactly one capture group named 'name'".toList

/-- A capital letter or an underscore, then capitals, digits and underscores. -/
def variableName : Pattern :=
  group (seq (oneOf [.range 'A' 'Z', .char '_'])
    (atLeast 0 (oneOf [.range 'A' 'Z', .range '0' '9', .char '_'])))

/-- A single or a double quote. -/
def quote : Pattern := oneOf [.char '\'', .char '"']

/-- The variable as a member: `object.NAME`. -/
def member (object : String) : Pattern :=
  seqs [literal object.toList, literal ".".toList, variableName]

/-- The variable as an index: `object['NAME']`. -/
def index (object : String) : Pattern :=
  seqs [literal object.toList, literal "[".toList, quote, variableName, quote, literal "]".toList]

/-- All forms: members and indices of the two objects of scripts that hold the environment, a
member with a default value, an index of the process environment,
and a call that looks a name up in it. -/
def registry : List AccessRule :=
  [⟨member "process.env"⟩,
    ⟨index "process.env"⟩,
    ⟨seqs [literal "process.env?.".toList, variableName]⟩,
    ⟨member "import.meta.env"⟩,
    ⟨index "import.meta.env"⟩,
    ⟨seqs [member "process.env", atLeast 0 (oneOf [.blank]), literal "??".toList]⟩,
    ⟨index "os.environ"⟩,
    ⟨seqs [literal "os.".toList, alt (literal "environ.get".toList) (literal "getenv".toList),
      literal "(".toList, atLeast 0 (oneOf [.blank]), quote, variableName, quote]⟩]

end AccessRule
end EnvAudit
