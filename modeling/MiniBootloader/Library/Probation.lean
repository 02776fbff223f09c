import Mathlib.Logic.Function.Iterate

/-!
# Probation

A candidate is tried a limited number of times before it is confirmed.  When
the attempts are used up the stable choice is restored, and stays.
-/

universe u

inductive Probation (S : Type u) where
  | settled (stable : S)
  | trial (stable candidate : S) (attempts : Nat)

namespace Probation

variable {S : Type u}

inductive Decision (S : Type u) where
  | keep (stable : S)
  | attempt (candidate : S) (number : Nat)
  | rollback (rejected restored : S)

def Decision.chosen : Decision S → S
  | .keep stable => stable
  | .attempt candidate _ => candidate
  | .rollback _ restored => restored

def decision (limit : Nat) : Probation S → Decision S
  | .settled stable => .keep stable
  | .trial stable candidate attempts =>
      if attempts < limit then .attempt candidate (attempts + 1)
      else .rollback candidate stable

def next (limit : Nat) : Probation S → Probation S
  | .settled stable => .settled stable
  | .trial stable candidate attempts =>
      if attempts < limit then .trial stable candidate (attempts + 1)
      else .settled stable

theorem next_iterate_settled (limit steps : Nat) (stable : S) :
    (next limit)^[steps] (.settled stable) = .settled stable :=
  Function.iterate_fixed rfl steps

/-- While attempts are left, every step uses one. -/
theorem next_iterate_trial {limit attempts steps : Nat}
    (left : steps ≤ limit - attempts) (stable candidate : S) :
    (next limit)^[steps] (.trial stable candidate attempts) =
      .trial stable candidate (attempts + steps) := by
  induction steps with
  | zero => rfl
  | succ steps ih =>
      have below : attempts + steps < limit := Nat.add_lt_of_lt_sub' left
      rw [Function.iterate_succ_apply', ih (Nat.le_of_lt left), next,
        if_pos below, Nat.add_assoc]

/-- After the last attempt the stable choice is restored for good. -/
theorem next_iterate_exhausted {limit attempts steps : Nat}
    (used : limit - attempts < steps) (stable candidate : S) :
    (next limit)^[steps] (.trial stable candidate attempts) =
      .settled stable := by
  obtain ⟨more, rfl⟩ := Nat.exists_eq_add_of_lt used
  have last : ¬ attempts + (limit - attempts) < limit := by omega
  rw [Nat.add_assoc, Nat.add_comm, Function.iterate_add_apply,
    next_iterate_trial (Nat.le_refl _), Function.iterate_succ_apply, next,
    if_neg last, next_iterate_settled]

/-- The decision after a number of steps of a trial. -/
theorem decision_iterate_trial (limit attempts steps : Nat)
    (stable candidate : S) :
    decision limit
        ((next limit)^[steps] (.trial stable candidate attempts)) =
      if steps < limit - attempts then
        .attempt candidate (attempts + steps + 1)
      else if steps = limit - attempts then .rollback candidate stable
      else .keep stable := by
  rcases Nat.lt_trichotomy steps (limit - attempts) with left | rfl | used
  · have below : attempts + steps < limit := Nat.add_lt_of_lt_sub' left
    rw [if_pos left, next_iterate_trial (Nat.le_of_lt left), decision,
      if_pos below]
  · have last : ¬ attempts + (limit - attempts) < limit := by omega
    rw [if_neg (Nat.lt_irrefl _), if_pos rfl,
      next_iterate_trial (Nat.le_refl _), decision, if_neg last]
  · rw [if_neg (Nat.lt_asymm used), if_neg (Nat.ne_of_gt used),
      next_iterate_exhausted used, decision]

end Probation
