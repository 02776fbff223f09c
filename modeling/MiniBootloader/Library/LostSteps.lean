import MiniBootloader.Library.Updates

/-!
# Probation with lost steps

When a step of a probation cannot be recorded, the probation may stay where
it was.  Each lost step gives the candidate at most one more attempt, so the
attempts stay bounded by those that were left and the steps that were lost.
-/

universe u

namespace Probation

variable {S : Type u}

/-- The attempts that are left. -/
def left (limit : Nat) : Probation S → Nat
  | .settled _ => 0
  | .trial _ _ attempts => limit - attempts

def Decision.isAttempt : Decision S → Bool
  | .attempt _ _ => true
  | _ => false

theorem left_next (limit : Nat) (probation : Probation S) :
    (probation.next limit).left limit = probation.left limit - 1 := by
  cases probation with
  | settled stable => rfl
  | trial stable candidate attempts =>
      rw [next]
      split
      · exact Nat.sub_add_eq ..
      · simp only [left]
        omega

/-- A candidate is tried as long as attempts are left. -/
theorem isAttempt_decision (limit : Nat) (probation : Probation S) :
    (probation.decision limit).isAttempt = true ↔
      0 < probation.left limit := by
  cases probation with
  | settled stable =>
      constructor
      · intro attempt
        cases attempt
      · intro more
        cases more
  | trial stable candidate attempts =>
      rw [decision, left, Nat.sub_pos_iff_lt]
      split
      · rename_i below
        constructor
        · intro _
          exact below
        · intro _
          rfl
      · rename_i above
        constructor
        · intro attempt
          cases attempt
        · intro below
          exact absurd below above

/-- Every other decision is for the stable choice. -/
theorem chosen_of_not_attempt {limit : Nat} {probation : Probation S}
    (other : (probation.decision limit).isAttempt = false) :
    (probation.decision limit).chosen = probation.stable := by
  cases probation with
  | settled stable => rfl
  | trial stable candidate attempts =>
      rw [decision] at other ⊢
      split at other
      · cases other
      · rename_i above
        rw [if_neg above]
        rfl

/-- The decision of a step, and whether the step may have been lost. -/
inductive Lossy (limit : Nat) :
    Probation S → Decision S × Bool → Probation S → Prop where
  | done (probation : Probation S) :
      Lossy limit probation (probation.decision limit, false)
        (probation.next limit)
  | lost {probation after : Probation S}
      (either : after = probation ∨ after = probation.next limit) :
      Lossy limit probation (probation.decision limit, true) after

variable {limit : Nat} {before after : Probation S}
  {label : Decision S × Bool}

theorem Lossy.label_eq (step : Lossy limit before label after) :
    label.1 = before.decision limit := by
  cases step <;> rfl

theorem Lossy.stable (step : Lossy limit before label after) :
    after.stable = before.stable := by
  cases step with
  | done => exact Update.stable_next limit before
  | lost either =>
      rcases either with rfl | rfl
      · rfl
      · exact Update.stable_next limit before

/-- An attempt is one of those left, or its step is lost. -/
theorem Lossy.left_le (step : Lossy limit before label after) :
    (if label.1.isAttempt then 1 else 0) + after.left limit ≤
      before.left limit + if label.2 then 1 else 0 := by
  have moved := left_next limit before
  have tried := isAttempt_decision limit before
  rw [step.label_eq]
  cases step with
  | done =>
      rw [moved]
      split
      · rename_i attempt
        have more := tried.mp attempt
        simp only [Bool.false_eq_true, if_false]
        omega
      · simp only [Bool.false_eq_true, if_false]
        omega
  | lost either =>
      have low : after.left limit ≤ before.left limit := by
        rcases either with rfl | rfl
        · exact Nat.le_refl _
        · rw [moved]
          exact Nat.sub_le _ _
      simp only [if_true]
      split <;> omega

/-- However the steps are lost, there are at most as many attempts as were
left and as steps were lost, and every other step chooses what was stable at
first. -/
theorem run_lossy {first last : Probation S}
    {labels : List (Decision S × Bool)}
    (run : Run (Lossy limit) first labels last) :
    labels.countP (fun label => label.1.isAttempt) ≤
        first.left limit + labels.countP Prod.snd ∧
      ∀ label ∈ labels, label.1.isAttempt = false →
        label.1.chosen = first.stable := by
  induction run with
  | nil state => exact ⟨Nat.zero_le _, List.forall_mem_nil _⟩
  | @cons first middle last label labels here rest ih =>
      obtain ⟨bounded, others⟩ := ih
      constructor
      · have step := here.left_le
        rw [List.countP_cons, List.countP_cons]
        omega
      · rw [here.stable] at others
        apply List.forall_mem_cons.mpr ⟨_, others⟩
        intro other
        rw [here.label_eq] at other ⊢
        exact chosen_of_not_attempt other

end Probation
