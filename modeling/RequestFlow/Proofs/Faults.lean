/-!
# Calculations that may fail

A calculation in steps gives a result only if every step gives one. If it does not, its fault is
that of the first step that has one.
-/

namespace RequestFlow

variable {ε α β γ : Type}

/-- The first of two steps gave a result, and the second one made the result of it. -/
theorem ok_of_bind {first : Except ε α} {next : α → Except ε β} {result : β}
    (h : first >>= next = .ok result) : ∃ value, first = .ok value ∧ next value = .ok result := by
  cases first with
  | error fault => exact absurd h (by simp [bind, Except.bind])
  | ok value => exact ⟨value, rfl, h⟩

/-- Two steps do not fail in a way in which neither of them does. -/
theorem bind_ne_error {first : Except ε α} {next : α → Except ε β} {fault : ε}
    (h : first ≠ .error fault) (hnext : ∀ value, next value ≠ .error fault) :
    first >>= next ≠ .error fault := by
  cases first with
  | error other => exact fun heq => h (congrArg _ (Except.error.inj heq))
  | ok value => exact hnext value

theorem map_ne_error {first : Except ε α} {fault : ε} (h : first ≠ .error fault) (f : α → β) :
    first.map f ≠ .error fault := by
  cases first with
  | error other => exact fun heq => h (congrArg _ (Except.error.inj heq))
  | ok value => nofun

/-- The fault of a calculation that has one. -/
def fault? : Except ε α → Option ε
  | .error fault => some fault
  | .ok _ => none

@[simp] theorem fault?_error (fault : ε) : fault? (.error fault : Except ε α) = some fault := rfl

@[simp] theorem fault?_ok (value : α) : fault? (.ok value : Except ε α) = none := rfl

@[simp] theorem fault?_map (first : Except ε α) (f : α → β) : fault? (first.map f) = fault? first := by
  cases first <;> rfl

/-- Of two steps that do not depend on each other, the first that has a fault tells it. -/
theorem fault?_both (first : Except ε α) (second : Except ε β) (f : α → β → γ) :
    fault? (do let a ← first; let b ← second; return f a b) =
      (fault? first).or (fault? second) := by
  cases first with
  | error fault => rfl
  | ok value => cases second <;> rfl

end RequestFlow
