import EnvAudit.PathName
import EnvAudit.Text.Lowercase

/-!
# Files and directories that no scan reads

Directories of dependencies, builds and version control, files with binary formats, and bundled
scripts. The names of files are compared without regard to case.
-/
namespace EnvAudit.Glob

/-- The directories that are left out wherever they are. -/
def skippedDirs : List Text :=
  ["node_modules", ".git", "dist", "build", "coverage", ".next", ".nuxt", "out", "vendor",
    ".husky", "__pycache__", ".pytest_cache", ".mypy_cache", ".venv", "venv", ".tox", ".eggs",
    "target", "bower_components"].map String.toList

/-- The endings of files with binary formats. -/
def binaryEndings : List Text :=
  [".png", ".jpg", ".jpeg", ".gif", ".svg", ".ico", ".webp", ".woff", ".woff2", ".ttf", ".eot",
    ".pdf", ".zip", ".tar", ".gz", ".rar", ".7z", ".mp4", ".mp3", ".avi", ".mov", ".wav", ".exe",
    ".dll", ".so", ".dylib", ".pyc", ".pyo", ".class", ".o"].map String.toList

/-- The endings of bundled scripts. -/
def bundleEndings : List Text := [".min.js", ".bundle.js"].map String.toList

/-- Whether a directory is left out. -/
def isSkippedDir (name : Text) : Bool := skippedDirs.contains name

/-- Whether a file is left out for its name. -/
def isBaselineExcluded (name : Text) : Bool :=
  let low := Text.lower name
  bundleEndings.any (·.isSuffixOf low) ||
    binaryEndings.contains (PathName.suffix (PathName.ofText low).name)

end EnvAudit.Glob
