/-!
# Computations that succeed or fail

A computation of several parts succeeds if the parts do, one after the other.
It fails with the fault of the first part that does not.
-/

namespace RowQuery

namespace Except

variable {ε α β : Type} {result : Except ε α} {b : β} {e : ε}

theorem map_eq_ok {f : α → β} :
    result.map f = .ok b ↔ ∃ a, result = .ok a ∧ f a = b := by
  cases result with
  | error e => simp [Except.map]
  | ok a => simp [Except.map]

theorem exists_map_eq_ok {f : α → β} : (∃ b, result.map f = .ok b) ↔ ∃ a, result = .ok a := by
  cases result with
  | error e => simp [Except.map]
  | ok a => simp [Except.map]

theorem bind_eq_ok {next : α → Except ε β} :
    (result >>= next) = .ok b ↔ ∃ a, result = .ok a ∧ next a = .ok b := by
  cases result with
  | error e => simp [bind, Except.bind]
  | ok a => simp [bind, Except.bind]

theorem map_eq_error {f : α → β} : result.map f = .error e ↔ result = .error e := by
  cases result with
  | error e => simp [Except.map]
  | ok a => simp [Except.map]

theorem bind_eq_error {next : α → Except ε β} :
    (result >>= next) = .error e
      ↔ result = .error e ∨ ∃ a, result = .ok a ∧ next a = .error e := by
  cases result with
  | error e => simp [bind, Except.bind]
  | ok a => simp [bind, Except.bind]

end Except

end RowQuery
