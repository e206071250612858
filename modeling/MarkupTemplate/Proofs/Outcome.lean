import Mathlib.Tactic
import MarkupTemplate.Render

/-!
# Outcomes

A computation that may fail is taken apart by what it came to: what a sequence of two comes to is
decided by the first where that fails, and by the second otherwise.
-/

namespace MarkupTemplate

section Except

variable {ε α β : Type} {x : Except ε α}

theorem map_eq_ok_iff {f : α → β} {b : β} : x.map f = .ok b ↔ ∃ a, x = .ok a ∧ f a = b := by
  cases x <;> simp [Except.map]

theorem map_eq_error_iff {f : α → β} {e : ε} : x.map f = .error e ↔ x = .error e := by
  cases x <;> simp [Except.map]

theorem bind_eq_ok_iff {f : α → Except ε β} {b : β} :
    x >>= f = .ok b ↔ ∃ a, x = .ok a ∧ f a = .ok b := by
  cases x <;> simp [bind, Except.bind]

theorem bind_eq_error_iff {f : α → Except ε β} {e : ε} :
    x >>= f = .error e ↔ x = .error e ∨ ∃ a, x = .ok a ∧ f a = .error e := by
  cases x <;> simp [bind, Except.bind]

end Except

namespace Rendered

variable {α β : Type} {x : Rendered α} {f : α → Rendered β}

theorem outcome_bind_eq_ok_iff {b : β} :
    (x.bind f).outcome = .ok b ↔ ∃ a, x.outcome = .ok a ∧ (f a).outcome = .ok b := by
  cases h : x.outcome <;> simp [bind, h]

theorem outcome_bind_eq_error_iff {e : Failure} :
    (x.bind f).outcome = .error e ↔
      x.outcome = .error e ∨ ∃ a, x.outcome = .ok a ∧ (f a).outcome = .error e := by
  cases h : x.outcome <;> simp [bind, h]

theorem outcome_ofExcept_eq_ok_iff {x : Except TemplateError α} {a : α} :
    (ofExcept x).outcome = .ok a ↔ x = .ok a := by
  cases x <;> simp [ofExcept, Except.mapError]

theorem outcome_ofExcept_eq_error_iff {x : Except TemplateError α} {failure : Failure} :
    (ofExcept x).outcome = .error failure ↔ ∃ e, x = .error e ∧ failure = .template e := by
  cases x <;> simp [ofExcept, Except.mapError, eq_comm]

end Rendered

end MarkupTemplate
