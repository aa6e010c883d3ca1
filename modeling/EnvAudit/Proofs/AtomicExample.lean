import EnvAudit.Dotenv.ExampleFile
import EnvAudit.Proofs.OneChange

/-!
# Examples are made as a whole or not at all

Making an example checks five things, reads the environment file and writes. `make_atomic` says
what the files are like afterwards: as before if it failed or kept an example that was there, and
else different in the one file that the output leads to, which is never the environment file.
-/
namespace EnvAudit

theorem bind_eq_ok_iff {α β : Type} {x : Except Failure α} {f : α → Except Failure β} {b : β} :
    (x >>= f) = .ok b ↔ ∃ a, x = .ok a ∧ f a = .ok b := by
  cases x <;> simp [bind, Except.bind]

theorem FileTree.resolve_eq {t : FileTree} {p real : PathName} (h : t.resolve p = .ok real) :
    real = t.realPath p := by
  rw [resolve] at h
  split at h
  · cases h
  · simp only at h
    split at h <;> cases h
    rfl

open FileTree

/-- Writing a file fails and changes nothing, or changes the file behind all links only. -/
theorem Changing.writeFile_cases {t : FileTree} (ht : t.Proper) {p : PathName}
    (hpipe : ∀ loc, t.find? p ≠ .ok (some (loc, .pipe))) (bytes : List UInt8) :
    (∃ e, writeFile p bytes t = ⟨.error e, t⟩) ∨
      ∃ loc after, writeFile p bytes t = ⟨.ok (), after⟩ ∧ t.realPath p = ⟨.root, loc⟩ ∧
        after.at? loc = some (.file bytes) ∧ t.AgreeBut after loc := by
  rw [writeFile_apply]
  cases hl : t.lookup p true with
  | error e => exact .inl ⟨_, rfl⟩
  | ok target =>
    obtain ⟨hreal, hthere⟩ := realPath_of_lookup ht hl
    cases target with
    | vacant base name =>
      obtain ⟨hbase, hnone⟩ := hthere
      refine .inr ⟨_, _, rfl, hreal, at?_put_self, agreeBut_put rfl ?_ ?_⟩
      · intro old hold
        rw [hnone] at hold
        cases hold
      · intro base' name' he
        obtain ⟨rfl, -⟩ := List.append_inj' he rfl
        exact hbase
    | found loc node =>
      cases node with
      | file old =>
        exact .inr ⟨_, _, rfl, hreal, at?_put_self, agreeBut_put_file hthere bytes⟩
      | pipe => exact absurd (find?_eq_found_iff.mpr hl) (hpipe loc)
      | dir _ | link _ => exact .inl ⟨_, rfl⟩

namespace ExampleFile

variable {t : FileTree} {env : PathName}

/-- What was checked holds: the environment file is a file, and the output is no name of it. -/
theorem check_ok {output : PathName} {isThere : Bool} (h : check t env output = .ok isThere) :
    ∃ source bytes real realEnv, t.find? env = .ok (some (source, .file bytes)) ∧
      t.resolve output = .ok real ∧ t.resolve env = .ok realEnv ∧ real ≠ realEnv ∧
      t.exists? output = .ok isThere := by
  rw [check] at h
  obtain ⟨isFile, hfile, h⟩ := bind_eq_ok_iff.mp h
  split at h
  · rename_i hc
    subst hc
    obtain ⟨source, bytes, hfind⟩ := find?_of_isFile? (orFail_eq_ok_iff.mp hfile)
    obtain ⟨real, hreal, h⟩ := bind_eq_ok_iff.mp h
    obtain ⟨realEnv, hrealEnv, h⟩ := bind_eq_ok_iff.mp h
    split at h
    · cases h
    · rename_i hne
      obtain ⟨isDir, -, h⟩ := bind_eq_ok_iff.mp h
      split at h
      · exact ⟨source, bytes, real, realEnv, hfind, hreal, hrealEnv, hne, orFail_eq_ok_iff.mp h⟩
      · cases h
  · cases h

/-- Making an example fails before it writes, keeps what is there, or writes. -/
theorem make_cases (t : FileTree) (env : PathName) (output : Option PathName) (force : Bool) :
    (∃ e, make env output force t = ⟨.error e, t⟩) ∨
      make env output force t = ⟨.ok (kept env (outputFor env output)), t⟩ ∨
      ∃ isThere entries, check t env (outputFor env output) = .ok isThere ∧
        (isThere && !force) = false ∧
        make env output force t =
          match Changing.writeFile (outputFor env output)
            (Utf8.encode (EnvEntry.exampleText entries)) t with
          | ⟨.ok (), after⟩ => ⟨.ok (written env (outputFor env output) entries), after⟩
          | ⟨.error e, after⟩ => ⟨.error e, after⟩ := by
  rw [make, Changing.bind_apply, Changing.ask]
  cases hc : check t env (outputFor env output) with
  | error e => exact .inl ⟨e, rfl⟩
  | ok isThere =>
    cases hkeep : isThere && !force with
    | true => exact .inr (.inl (by simp [hkeep]))
    | false =>
      simp only [hkeep, Bool.false_eq_true, if_false, Changing.bind_apply, Changing.ask]
      cases readEntries t env (outputFor env output).name with
      | error e => exact .inl ⟨e, rfl⟩
      | ok entries =>
        refine .inr (.inr ⟨isThere, entries, rfl, hkeep, ?_⟩)
        dsimp only
        rcases Changing.writeFile (outputFor env output)
          (Utf8.encode (EnvEntry.exampleText entries)) t with ⟨_ | _, after⟩ <;> rfl

/-- The results that making an example can give where all that is checked holds: what is there
already is kept, or the example of the entries that were read is written. -/
inductive Gives (t : FileTree) (env output : PathName) (force : Bool) : ExampleResult → Prop
  | kept (hcheck : check t env output = .ok true) (hforce : force = false) :
    Gives t env output force (kept env output)
  | written {isThere : Bool} {entries : List EnvEntry} (hcheck : check t env output = .ok isThere)
    (hallowed : (isThere && !force) = false) (hread : readEntries t env output.name = .ok entries)
    (hwrite : (Changing.writeFile output
      (Utf8.encode (EnvEntry.exampleText entries)) t).outcome = .ok ()) :
    Gives t env output force (written env output entries)

/-- Making an example has exactly the results that it can give. -/
theorem outcome_make_eq_ok_iff {t : FileTree} {env : PathName} {output : Option PathName}
    {force : Bool} {r : ExampleResult} :
    (make env output force t).outcome = .ok r ↔ Gives t env (outputFor env output) force r := by
  rw [make, Changing.bind_apply, Changing.ask]
  constructor
  · intro h
    cases hcheck : check t env (outputFor env output) with
    | error e => simp [hcheck] at h
    | ok isThere =>
      cases hkeep : isThere && !force with
      | true =>
        simp only [hcheck, hkeep, if_true, Changing.pure_apply, Except.ok.injEq] at h
        obtain ⟨rfl, hforce⟩ : isThere = true ∧ force = false := by simpa using hkeep
        exact h ▸ .kept hcheck hforce
      | false =>
        simp only [hcheck, hkeep, Bool.false_eq_true, if_false, Changing.bind_apply,
          Changing.ask] at h
        cases hread : readEntries t env (outputFor env output).name with
        | error e => simp [hread] at h
        | ok entries =>
          simp only [hread] at h
          cases hwrite : Changing.writeFile (outputFor env output)
            (Utf8.encode (EnvEntry.exampleText entries)) t with
          | mk outcome after =>
            cases outcome with
            | error e => simp [hwrite] at h
            | ok u =>
              simp only [hwrite, Changing.pure_apply, Except.ok.injEq] at h
              exact h ▸ .written hcheck hkeep hread (by rw [hwrite])
  · intro h
    cases h with
    | kept hcheck hforce => simp [hcheck, hforce]
    | @written isThere entries hcheck hallowed hread hwrite =>
      revert hwrite
      cases hw : Changing.writeFile (outputFor env output)
        (Utf8.encode (EnvEntry.exampleText entries)) t with
      | mk outcome after =>
        rintro rfl
        simp [hcheck, hallowed, hread, hw, Changing.ask]

/-- What it means that an example was made: the output leads to one file, which holds the content
of the result; all else is as it was, the environment file too, which is another one; and only a
file that may be replaced was. -/
structure IsMade (t after : FileTree) (env output : PathName) (force : Bool) (r : ExampleResult)
    (loc : Location) : Prop where
  resolves : t.resolve output = .ok ⟨.root, loc⟩
  content : after.at? loc = some (.file (Utf8.encode r.content))
  others : t.AgreeBut after loc
  source : ∃ source bytes, t.find? env = .ok (some (source, .file bytes)) ∧ source ≠ loc ∧
    after.at? source = some (.file bytes)
  allowed : force = true ∨ t.exists? output = .ok false

/-- The output and the environment file are at two locations, for their real paths were held
against each other. -/
theorem isMade_written (ht : t.Proper) {after : FileTree} {output : PathName} {force isThere : Bool}
    {entries : List EnvEntry} {loc : Location} (hc : check t env output = .ok isThere)
    (hkeep : (isThere && !force) = false) (hreal : t.realPath output = ⟨.root, loc⟩)
    (hat : after.at? loc = some (.file (Utf8.encode (EnvEntry.exampleText entries))))
    (hbut : t.AgreeBut after loc) :
    IsMade t after env output force (written env output entries) loc := by
  obtain ⟨source, bytes, real, realEnv, hfind, hro, hre, hne, hex⟩ := check_ok hc
  obtain ⟨hrealEnv, hthere⟩ := realPath_of_lookup ht (find?_eq_found_iff.mp hfind)
  have hsource : source ≠ loc := by
    rintro rfl
    rw [resolve_eq hro, resolve_eq hre, hreal, hrealEnv] at hne
    exact hne rfl
  refine ⟨?_, hat, hbut, ⟨source, bytes, hfind, hsource, hbut.file hsource hthere⟩, ?_⟩
  · rw [hro, resolve_eq hro, hreal]
  · cases isThere with
    | true => exact .inl (by simpa using hkeep)
    | false => exact .inr hex

/-- **An example is made as a whole or not at all.** If making one fails, or keeps what is there,
the files are as before; if it succeeds, they differ in the one file that the output leads to. -/
theorem make_atomic (ht : t.Proper) (env : PathName) (output : Option PathName) (force : Bool)
    (hpipe : ∀ loc, t.find? (outputFor env output) ≠ .ok (some (loc, .pipe))) :
    (∀ e, (make env output force t).outcome = .error e → (make env output force t).after = t) ∧
    ∀ r, (make env output force t).outcome = .ok r →
      (r.success = false → (make env output force t).after = t) ∧
      (r.success = true → ∃ loc,
        IsMade t (make env output force t).after env (outputFor env output) force r loc) := by
  rcases make_cases t env output force with ⟨e, h⟩ | h | ⟨isThere, entries, hc, hkeep, h⟩
  · rw [h]
    exact ⟨fun _ _ => rfl, fun r hr => by cases hr⟩
  · rw [h]
    refine ⟨fun _ _ => rfl, fun r hr => ⟨fun _ => rfl, fun hs => ?_⟩⟩
    cases hr
    cases hs
  · rcases Changing.writeFile_cases ht hpipe (Utf8.encode (EnvEntry.exampleText entries)) with
      ⟨e, hw⟩ | ⟨loc, after, hw, hreal, hat, hbut⟩
    · rw [h, hw]
      exact ⟨fun _ _ => rfl, fun r hr => by cases hr⟩
    · rw [h, hw]
      refine ⟨fun e he => (by cases he), fun r hr => ⟨fun hs => ?_, fun _ => ⟨loc, ?_⟩⟩⟩
      · cases hr
        cases hs
      · cases hr
        exact isMade_written ht hc hkeep hreal hat hbut

/-- An environment file beside a link to an example that is not there yet. -/
def danglingTree : FileTree where
  root := .dir [(".env".toList, .file [0x41, 0x3D, 0x31]),
    (".env.example".toList, .link "shared".toList)]
  here := []

/-- The name of an environment file. -/
def dotEnv : PathName := ⟨.here, [".env".toList]⟩

theorem make_behind_dangling_link :
    ∃ r, (make dotEnv none false danglingTree).outcome = .ok r ∧ r.success = true ∧
      ∃ loc, IsMade danglingTree (make dotEnv none false danglingTree).after dotEnv
        (outputFor dotEnv none) false r loc := by
  have ht : danglingTree.Proper := ⟨by decide, rfl, rfl⟩
  have hvacant : danglingTree.find? (outputFor dotEnv none) = .ok none := rfl
  have hpipe : ∀ loc, danglingTree.find? (outputFor dotEnv none) ≠ .ok (some (loc, .pipe)) := by
    intro loc h
    rw [hvacant] at h
    cases h
  refine ⟨_, rfl, rfl, ?_⟩
  exact ((make_atomic ht dotEnv none false hpipe).2 _ rfl).2 rfl

end ExampleFile
end EnvAudit
