import Mathlib.Data.List.Basic

/-!
# Bounded logs

A log keeps the newest entries it was given, the newest first, and forgets
the others.
-/

universe u

namespace BoundedLog

variable {E : Type u}

/-- One more entry in a log of at most `capacity` entries. -/
def push (capacity : Nat) (log : List E) (entry : E) : List E :=
  (entry :: log).take capacity

/-- Forgetting old entries does not show among the newest ones. -/
theorem take_append_take {shown capacity : Nat} (le : shown ≤ capacity)
    (newer older : List E) :
    (newer ++ older.take capacity).take shown =
      (newer ++ older).take shown := by
  rw [List.take_append, List.take_append, List.take_take]
  congr 2
  omega

theorem take_foldl_push {shown capacity : Nat} (le : shown ≤ capacity)
    (log entries : List E) :
    (entries.foldl (push capacity) log).take shown =
      (entries.reverse ++ log).take shown := by
  induction entries generalizing log with
  | nil => rfl
  | cons entry entries ih =>
      rw [List.foldl_cons, ih, push, take_append_take le,
        List.reverse_cons, List.append_assoc, List.singleton_append]

theorem take_push_of_take {shown capacity : Nat} (le : shown ≤ capacity)
    {log log' : List E} (same : log.take shown = log'.take shown)
    (entry : E) :
    (push capacity log entry).take shown = (entry :: log').take shown := by
  rw [push, List.take_take, Nat.min_eq_left le]
  cases shown with
  | zero => rfl
  | succ shown =>
      have fewer := congrArg (List.take shown) same
      rw [List.take_take, List.take_take,
        Nat.min_eq_left (Nat.le_succ shown)] at fewer
      rw [List.take_succ_cons, List.take_succ_cons, fewer]

end BoundedLog
