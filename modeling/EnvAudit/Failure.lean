import EnvAudit.FileTree.Lookup
import EnvAudit.Text.Quoted
import EnvAudit.Yaml.Fault

/-!
# Failures

Why an operation on files ends without a result, one cause per constructor, and the message for
each.
-/
namespace EnvAudit

/-- Why an operation has no result. -/
inductive Failure where
  /-- A path name leads nowhere; the name as given. -/
  | path (problem : PathProblem) (shown : Text)
  /-- A file was to be written where a directory is. -/
  | isDirectory (shown : Text)
  /-- A link leads back to itself. -/
  | linkLoop (shown : Text)
  /-- The directory to scan is not there. -/
  | scanRootMissing (shown : Text)
  /-- What was to be scanned is no directory. -/
  | scanRootNotDirectory (shown : Text)
  /-- No worker was to do the work. -/
  | noWorkers
  /-- There is no environment file to make an example of. -/
  | envFileMissing (shown : Text)
  /-- The example would replace its own source. -/
  | outputIsSource (shown : Text)
  /-- There is no directory for the example. -/
  | outputDirectoryMissing (shown : Text)
  /-- The source of an example named `example` is no text. -/
  | sourceNotText (exampleName shown : Text) (fault : Utf8.Fault)
  /-- A file that has to be text is none. -/
  | notText (fault : Utf8.Fault)
  /-- A list or mapping stands where only single values can; the word for its kind. -/
  | unhashable (kind : Text)
  /-- A scalar of a document does not have the value that it should. -/
  | badValue (fault : Yaml.ValueFault)
  /-- A number has more digits than are read, or than are written; how many, if it is read. -/
  | tooManyDigits (count : Option Nat)
  /-- Data is nested too deeply to be read. -/
  | tooDeep (context : Text)
  /-- Something else was given in place of a path name; the word for its kind. -/
  | notPathName (kind : Text)
  /-- Something else was given in place of a list; the word for its kind. -/
  | notList (kind : Text)
  /-- Something else was given in place of a glob; the word for its kind. -/
  | notGlob (kind : Text)
  /-- Something else was given in place of a mapping; the word for its kind. -/
  | notMapping (kind : Text)
deriving DecidableEq, Repr

/-- The number and the words of the system for a problem with a path name. -/
def PathProblem.message (shown : Text) : PathProblem → Text
  | .notFound => "[Errno 2] No such file or directory: ".toList ++ Text.quoted shown
  | .notDirectory => "[Errno 20] Not a directory: ".toList ++ Text.quoted shown
  | .tooManyLinks => "[Errno 40] Too many levels of symbolic links: ".toList ++ Text.quoted shown
  | .nameTooLong => "[Errno 36] File name too long: ".toList ++ Text.quoted shown
  | .embeddedNull => "embedded null byte".toList

/-- The message for a failure. -/
def Failure.message : Failure → Text
  | .path problem shown => problem.message shown
  | .isDirectory shown => "[Errno 21] Is a directory: ".toList ++ Text.quoted shown
  | .linkLoop shown => "Symlink loop from ".toList ++ Text.quoted shown
  | .scanRootMissing shown => "Path does not exist: ".toList ++ shown
  | .scanRootNotDirectory shown => "Path is not a directory: ".toList ++ shown
  | .noWorkers => "max_workers must be greater than 0".toList
  | .envFileMissing shown => ".env file not found: ".toList ++ shown
  | .outputIsSource shown => "Output path is the source .env file: ".toList ++ shown
  | .outputDirectoryMissing shown => "Output directory does not exist: ".toList ++ shown
  | .sourceNotText exampleName shown fault =>
    "Failed to create ".toList ++ exampleName ++ ": ".toList ++ shown ++
      " is not valid UTF-8 (".toList ++ fault.message ++ ")".toList
  | .notText fault => fault.message
  | .unhashable kind => "unhashable type: '".toList ++ kind ++ "'".toList
  | .badValue fault => fault.message
  | .tooManyDigits count => tooManyDigitsMessage count
  | .tooDeep context => "maximum recursion depth exceeded".toList ++ context
  | .notPathName kind => "expected str, bytes or os.PathLike object, not ".toList ++ kind
  | .notList kind =>
    "can only concatenate list (not \"".toList ++ kind ++ "\") to list".toList
  | .notGlob kind => "'".toList ++ kind ++ "' object has no attribute 'replace'".toList
  | .notMapping kind => "'".toList ++ kind ++ "' object has no attribute 'get'".toList

end EnvAudit
