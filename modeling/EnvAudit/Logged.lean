import EnvAudit.Failure

/-!
# Results with warnings

An operation may say warnings on its way to a result or a failure. The warnings stand in the order
in which they were said, and a failure keeps those said before it: `warnings_bind`. What comes of
many operations is said by `mapM_eq`.
-/
namespace EnvAudit

/-- A result or a failure, and the warnings on the way to it. -/
structure Logged (α : Type) where
  warnings : List Text
  outcome : Except Failure α

namespace Logged

/-- A result without warnings. -/
def ofExcept {α : Type} (outcome : Except Failure α) : Logged α := ⟨[], outcome⟩

/-- A failure without warnings. -/
def fail {α : Type} (f : Failure) : Logged α := ⟨[], .error f⟩

/-- Says a warning. -/
def warn (message : Text) : Logged Unit := ⟨[message], .ok ()⟩

/-- Goes on with the result of an operation; its warnings come first. -/
def bind {α β : Type} (x : Logged α) (f : α → Logged β) : Logged β :=
  match x.outcome with
  | .ok a =>
    let y := f a
    ⟨x.warnings ++ y.warnings, y.outcome⟩
  | .error e => ⟨x.warnings, .error e⟩

instance : Monad Logged where
  pure a := ⟨[], .ok a⟩
  bind := bind

@[simp] theorem pure_eq {α : Type} (a : α) : (pure a : Logged α) = ⟨[], .ok a⟩ := rfl

theorem bind_ok {α β : Type} (ws : List Text) (a : α) (f : α → Logged β) :
    (⟨ws, .ok a⟩ >>= f : Logged β) = ⟨ws ++ (f a).warnings, (f a).outcome⟩ := rfl

theorem bind_error {α β : Type} (ws : List Text) (e : Failure) (f : α → Logged β) :
    (⟨ws, .error e⟩ >>= f : Logged β) = ⟨ws, .error e⟩ := rfl

/-- A chain of operations has a result if each of them has one. -/
theorem outcome_bind_eq_ok_iff {α β : Type} {x : Logged α} {f : α → Logged β} {b : β} :
    (x >>= f).outcome = .ok b ↔ ∃ a, x.outcome = .ok a ∧ (f a).outcome = .ok b := by
  obtain ⟨ws, o⟩ := x
  cases o with
  | error e => simp [bind_error]
  | ok a => simp [bind_ok]

/-- The warnings of the first of two operations come first. -/
theorem warnings_bind {α β : Type} (x : Logged α) (f : α → Logged β) :
    x.warnings <+: (x >>= f).warnings := by
  obtain ⟨ws, o⟩ := x
  cases o with
  | ok a => exact ⟨(f a).warnings, rfl⟩
  | error e => exact List.prefix_refl _

instance : LawfulMonad Logged := LawfulMonad.mk' Logged
  (by
    rintro α ⟨ws, o⟩
    cases o <;> simp [Functor.map, bind])
  (fun _ _ => by simp [Bind.bind, bind])
  (by
    rintro α β γ ⟨ws, o⟩ f g
    cases o with
    | error e => rfl
    | ok a =>
      cases h : (f a).outcome <;> simp [Bind.bind, bind, h])

/-- Operations that all have a result: the warnings of each and the results, in order. -/
theorem mapM_eq {α β : Type} {f : α → Logged β} {ws : α → List Text} {g : α → β} {xs : List α}
    (h : ∀ a ∈ xs, f a = ⟨ws a, .ok (g a)⟩) : xs.mapM f = ⟨xs.flatMap ws, .ok (xs.map g)⟩ := by
  induction xs with
  | nil => rfl
  | cons a xs ih =>
    rw [List.forall_mem_cons] at h
    rw [List.mapM_cons, h.1, bind_ok, ih h.2, bind_ok]
    simp

end Logged
end EnvAudit
