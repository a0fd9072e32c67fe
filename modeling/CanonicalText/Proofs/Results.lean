import Mathlib

/-!
# Results of steps that can fail
-/

namespace CanonicalText

variable {ε α β : Type} {r : Except ε α} {y : β}

theorem bind_eq_ok_iff {f : α → Except ε β} : r >>= f = .ok y ↔ ∃ x, r = .ok x ∧ f x = .ok y := by
  cases r with
  | error e => simp [bind, Except.bind]
  | ok x => simp [bind, Except.bind]

theorem map_eq_ok_iff {f : α → β} : r.map f = .ok y ↔ ∃ x, r = .ok x ∧ f x = y := by
  cases r with
  | error e => simp [Except.map]
  | ok x => simp [Except.map]

/-- Only what the first step can give matters to the second one. -/
theorem bind_congr_of_ok {f g : α → Except ε β} (h : ∀ x, r = .ok x → f x = g x) : r >>= f = r >>= g := by
  cases r with
  | error e => rfl
  | ok x => exact h x rfl

end CanonicalText
