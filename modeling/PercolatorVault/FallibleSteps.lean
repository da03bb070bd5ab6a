import Mathlib.Tactic

/-!
# Sequences of steps that may fail

A handler is a sequence of checks and calls in `Except`.  `require` is a
guard, `okOr` turns a missing value into an error.  The simp lemmas turn the
statement that a whole sequence succeeded into the conjunction of what each of
its steps established, so that no proof has to unfold the monad.
-/

namespace FallibleSteps

variable {ε α β : Type}

def require (condition : Prop) [Decidable condition] (error : ε) :
    Except ε Unit :=
  if condition then .ok () else .error error

def okOr (value : Option α) (error : ε) : Except ε α :=
  match value with
  | some a => .ok a
  | none => .error error

@[simp] theorem bind_eq_ok {x : Except ε α} {f : α → Except ε β} {b : β} :
    (x >>= f) = .ok b ↔ ∃ a, x = .ok a ∧ f a = .ok b := by
  cases x with
  | error e =>
      constructor
      · intro h
        cases h
      · rintro ⟨a, h, _⟩
        cases h
  | ok a =>
      constructor
      · intro h
        exact ⟨a, rfl, h⟩
      · rintro ⟨a', h, hf⟩
        cases h
        exact hf

@[simp] theorem require_eq_ok {condition : Prop} [Decidable condition]
    {error : ε} {u : Unit} :
    require condition error = .ok u ↔ condition := by
  unfold require
  split <;> simp [*]

@[simp] theorem okOr_eq_ok {value : Option α} {error : ε} {a : α} :
    okOr value error = .ok a ↔ value = some a := by
  cases value <;> simp [okOr]

theorem ok_bind (a : α) (f : α → Except ε β) :
    (Except.ok a >>= f) = f a := rfl

/-- What follows a step matters only where the step succeeds. -/
theorem bind_congr_of_ok {x : Except ε α} {f g : α → Except ε β}
    (h : ∀ a, x = .ok a → f a = g a) : (x >>= f) = (x >>= g) := by
  cases x with
  | error e => rfl
  | ok a => exact h a rfl

theorem bind_congr_of_eq {x y : Except ε α} {f g : α → Except ε β}
    (hstep : x = y) (h : ∀ a, y = .ok a → f a = g a) :
    (x >>= f) = (y >>= g) := by
  rw [hstep]
  exact bind_congr_of_ok h

/-! ## Refusals

What a sequence of checks answers, written as a list of refusals in their
order.
-/

theorem error_bind (error : ε) (f : α → Except ε β) :
    ((.error error : Except ε α) >>= f) = .error error := rfl

theorem require_of {condition : Prop} [Decidable condition]
    (h : condition) (error : ε) : require condition error = .ok () :=
  if_pos h

theorem require_of_not {condition : Prop} [Decidable condition]
    (h : ¬ condition) (error : ε) :
    require condition error = .error error :=
  if_neg h

/-- A guard and the first entry of a list of refusals that agree on when to
refuse. -/
theorem require_refuses {condition refused : Prop} [Decidable condition]
    [Decidable refused] {first error : ε} {rest : Option ε}
    {f : Unit → Except ε β}
    (h : (if refused then some first else rest) = some error)
    (hrefused : refused ↔ ¬ condition)
    (hrest : condition → rest = some error → f () = .error error) :
    (require condition first >>= f) = .error error := by
  by_cases hcondition : condition
  · rw [if_neg fun hr => hrefused.mp hr hcondition] at h
    rw [require_of hcondition, ok_bind]
    exact hrest hcondition h
  · rw [if_pos (hrefused.mpr hcondition)] at h
    cases h
    rw [require_of_not hcondition, error_bind]

/-- The same for a value that may be missing. -/
theorem okOr_refuses {value : Option α} {refused : Prop} [Decidable refused]
    {first error : ε} {rest : Option ε} {f : α → Except ε β}
    (h : (if refused then some first else rest) = some error)
    (hrefused : refused ↔ value = none)
    (hrest : ∀ a, value = some a → rest = some error → f a = .error error) :
    (okOr value first >>= f) = .error error := by
  cases value with
  | none =>
      rw [if_pos (hrefused.mpr rfl)] at h
      cases h
      rfl
  | some a =>
      rw [if_neg fun hr => nomatch hrefused.mp hr] at h
      exact hrest a rfl h

theorem refuses_eq_none {refused : Prop} [Decidable refused] {first : ε}
    {rest : Option ε} :
    (if refused then some first else rest) = none ↔
      ¬ refused ∧ rest = none := by
  by_cases hrefused : refused
  · rw [if_pos hrefused]
    exact ⟨nofun, fun h => absurd hrefused h.1⟩
  · rw [if_neg hrefused]
    exact (and_iff_right hrefused).symm

end FallibleSteps
