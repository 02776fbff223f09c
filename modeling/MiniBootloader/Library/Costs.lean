import Mathlib.Algebra.Order.BigOperators.Group.List
import Mathlib.Algebra.Order.Monoid.Prod
import MiniBootloader.Library.Traced

/-!
# What a traced computation costs

Every event has a cost in an ordered monoid, which may count several things
at once.  A budget bounds the cost of a run whatever its result, and the
rules build the budget of a computation from those of its parts.
-/

/-- Hiding events that cost nothing does not change the cost. -/
theorem sum_map_filterMap {ω ω' M : Type} [AddMonoid M] {cost : ω → M}
    {view : ω → Option ω'} {cost' : ω' → M}
    (kept : ∀ event, cost event = ((view event).map cost').getD 0)
    (events : List ω) :
    ((events.filterMap view).map cost').sum = (events.map cost).sum := by
  induction events with
  | nil => rfl
  | cons event events ih =>
      rw [List.map_cons, List.sum_cons, kept event, ← ih]
      cases shown : view event with
      | none =>
          rw [List.filterMap_cons_none shown, Option.map_none,
            Option.getD_none, zero_add]
      | some event' =>
          rw [List.filterMap_cons_some shown, List.map_cons, List.sum_cons,
            Option.map_some, Option.getD_some]

namespace Traced

variable {σ ω ε ε' α β M : Type} [AddCommMonoid M] [PartialOrder M]

/-- The events of the run cost at most the budget together. -/
def Within (cost : ω → M) (budget : M) (body : Traced σ ω ε α) (env : σ) :
    Prop :=
  ((body.run env).trace.map cost).sum ≤ budget

section Rules

variable {cost : ω → M} {budget : M} {env : σ}

theorem Within.mono {small : M} {body : Traced σ ω ε α}
    (within : body.Within cost small env) (le : small ≤ budget) :
    body.Within cost budget env :=
  le_trans within le

theorem Within.mapError {convert : ε → ε'} {body : Traced σ ω ε α}
    (within : body.Within cost budget env) :
    (body.mapError convert).Within cost budget env :=
  within

theorem Within.attempt {body : Traced σ ω ε α}
    (within : body.Within cost budget env) :
    (body.attempt : Traced σ ω ε' (Except ε α)).Within cost budget env :=
  within

theorem within_pure (value : α) :
    (Pure.pure value : Traced σ ω ε α).Within cost 0 env :=
  le_refl _

theorem within_throw (error : ε) :
    (throw error : Traced σ ω ε α).Within cost 0 env :=
  le_refl _

theorem within_emit (event : ω) :
    (emit event : Traced σ ω ε Unit).Within cost (cost event) env := by
  simp [Within]

variable [IsOrderedAddMonoid M]

/-- The budget has to last for a first part that fails, and for what follows
each result of one that succeeds. -/
theorem Within.bind_of_results {spent : M} {first : Traced σ ω ε α}
    {next : α → Traced σ ω ε β} (within : first.Within cost spent env)
    (fails : spent ≤ budget)
    (continues : ∀ value, (first.run env).result = .ok value →
      ∃ rest, (next value).Within cost rest env ∧ spent + rest ≤ budget) :
    (first >>= next).Within cost budget env := by
  cases ended : (first.run env).result with
  | error error =>
      rw [Within, run_bind_of_error ended]
      exact le_trans within fails
  | ok value =>
      obtain ⟨rest, later, enough⟩ := continues value ended
      rw [Within, run_bind_of_ok ended, List.map_append, List.sum_append]
      exact le_trans (add_le_add within later) enough

/-- What follows costs nothing. -/
theorem Within.bind_of_free {first : Traced σ ω ε α}
    {next : α → Traced σ ω ε β} (within : first.Within cost budget env)
    (free : ∀ value, (next value).Within cost 0 env) :
    (first >>= next).Within cost budget env := by
  apply within.bind_of_results (le_refl _)
  intro value _
  exact ⟨0, free value, le_of_eq (add_zero _)⟩

variable [CanonicallyOrderedAdd M]

theorem Within.bind {spent rest : M} {first : Traced σ ω ε α}
    {next : α → Traced σ ω ε β} (within : first.Within cost spent env)
    (later : ∀ value, (first.run env).result = .ok value →
      (next value).Within cost rest env) :
    (first >>= next).Within cost (spent + rest) env := by
  apply within.bind_of_results (le_add_of_nonneg_right zero_le)
  intro value ended
  exact ⟨rest, later value ended, le_refl _⟩

end Rules

end Traced
