import EnvAudit.FileTree.RealPath
import EnvAudit.Failure

/-!
# Reading, resolving and writing files

The operations on a file tree that a scan and the making of examples need. A step
that writes may fail half-way, so its outcome comes with the files as it left them (`Changing`).
Writing changes the file that a path name leads to behind all links, or makes one, and nothing
else: `writeFile_apply`.
-/
namespace EnvAudit

namespace FileTree

/-- The result of an operation on a path name, with its problem as a failure. -/
def orFail {α : Type} (p : PathName) : Except PathProblem α → Except Failure α
  | .ok a => .ok a
  | .error e => .error (.path e p.toText)

theorem orFail_eq_ok_iff {α : Type} {p : PathName} {x : Except PathProblem α} {a : α} :
    orFail p x = .ok a ↔ x = .ok a := by
  cases x <;> simp [orFail]

/-- The real path behind a name. A name whose links never end has none. -/
def resolve (t : FileTree) (p : PathName) : Except Failure PathName :=
  if p.parts.any (·.contains '\x00') then .error (.path .embeddedNull p.toText)
  else
    let real := t.realPath p
    match t.find? real with
    | .error .tooManyLinks => .error (.linkLoop real.toText)
    | _ => .ok real

/-- The bytes of the regular file that a name leads to, if it leads to one. -/
def bytesOf? (t : FileTree) (p : PathName) : Except PathProblem (Option (List UInt8)) :=
  match t.find? p with
  | .ok (some (_, .file bytes)) => .ok (some bytes)
  | .ok _ => .ok none
  | .error e => .error e

/-- The largest file that is read unless another limit is given. -/
def defaultMaxSize : Int := 1024 * 1024

/-- The text that bytes encode, if they are no more than the limit and none of them is null. -/
def textWithin (maxSize : Int) (bytes : List UInt8) : Option Text :=
  if maxSize < bytes.length then none
  else if bytes.contains 0 then none
  else Utf8.decode? bytes

/-- The text of a file at a path name that is built from the names of entries: a regular file within
the size limit, without null bytes, in UTF-8. All else has no text. Only a name that no file can have
is a failure. -/
def readText (t : FileTree) (p : PathName) (maxSize : Int) : Except Failure (Option Text) :=
  match t.bytesOf? p with
  | .error .embeddedNull => .error (.path .embeddedNull p.toText)
  | .error _ => .ok none
  | .ok none => .ok none
  | .ok (some bytes) => .ok (textWithin maxSize bytes)

end FileTree

/-! ## Steps on files -/

/-- What came of a step on files: its result or failure, and the files as it left them, which it
may have changed before it failed. -/
structure Changed (α : Type) where
  outcome : Except Failure α
  after : FileTree

/-- A step on files. -/
def Changing (α : Type) := FileTree → Changed α

namespace Changing

instance : Monad Changing where
  pure a t := ⟨.ok a, t⟩
  bind x f t :=
    match x t with
    | ⟨.ok a, after⟩ => f a after
    | ⟨.error e, after⟩ => ⟨.error e, after⟩

@[simp] theorem pure_apply {α : Type} (a : α) (t : FileTree) :
    (pure a : Changing α) t = ⟨.ok a, t⟩ := rfl

/-- The next step begins with the files that the last one left. -/
@[simp] theorem bind_apply {α β : Type} (x : Changing α) (f : α → Changing β) (t : FileTree) :
    (x >>= f) t =
      match x t with
      | ⟨.ok a, after⟩ => f a after
      | ⟨.error e, after⟩ => ⟨.error e, after⟩ := rfl

/-- Asks the files something, which leaves them as they are. -/
def ask {α : Type} (question : FileTree → Except Failure α) : Changing α :=
  fun t => ⟨question t, t⟩

/-- Opens a file for writing where a path name leads: the one that is there loses its bytes, or an
empty one is made. Gives its location; what is written to a pipe goes nowhere. -/
def openFile (p : PathName) : Changing (Option Location) := fun t =>
  match t.lookup p true with
  | .error e => ⟨.error (.path e p.toText), t⟩
  | .ok (.vacant dir name) => ⟨.ok (some (dir ++ [name])), t.put (dir ++ [name]) (.file [])⟩
  | .ok (.found loc (.file _)) => ⟨.ok (some loc), t.put loc (.file [])⟩
  | .ok (.found _ .pipe) => ⟨.ok none, t⟩
  | .ok (.found _ _) => ⟨.error (.isDirectory p.toText), t⟩

/-- Fills the file that was opened at a location. -/
def fill (bytes : List UInt8) : Option Location → Changing Unit
  | some loc => fun t => ⟨.ok (), t.put loc (.file bytes)⟩
  | none => pure ()

/-- Writes a file where a path name leads: into the file that is there, or into a new one. -/
def writeFile (p : PathName) (bytes : List UInt8) : Changing Unit := do
  fill bytes (← openFile p)

/-- Opened and filled, a file has the new bytes; where none can be opened nothing is changed. -/
theorem writeFile_apply (t : FileTree) (p : PathName) (bytes : List UInt8) :
    writeFile p bytes t =
      match t.lookup p true with
      | .error e => ⟨.error (.path e p.toText), t⟩
      | .ok (.vacant dir name) => ⟨.ok (), t.put (dir ++ [name]) (.file bytes)⟩
      | .ok (.found loc (.file _)) => ⟨.ok (), t.put loc (.file bytes)⟩
      | .ok (.found _ .pipe) => ⟨.ok (), t⟩
      | .ok (.found _ _) => ⟨.error (.isDirectory p.toText), t⟩ := by
  rw [writeFile, bind_apply, openFile]
  cases t.lookup p true with
  | error e => rfl
  | ok target =>
    cases target with
    | vacant dir name => simp [fill, FileTree.put_put]
    | found loc node => cases node <;> simp [fill, FileTree.put_put]

end Changing

/-- The files with a file written where a path name leads. -/
def FileTree.write (t : FileTree) (p : PathName) (bytes : List UInt8) : Except Failure FileTree :=
  match Changing.writeFile p bytes t with
  | ⟨.ok (), after⟩ => .ok after
  | ⟨.error e, _⟩ => .error e

end EnvAudit
