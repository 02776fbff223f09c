import Mathlib.Data.List.Induction
import MiniBootloader.Library.Probation
import MiniBootloader.Library.Runs

/-!
# Updates under probation

A device keeps an image in each of its slots and updates itself: it stages an
image in a slot that is not the stable one, tries it for a limited number of
boots, and makes it stable once it is confirmed.  An image that is never
confirmed is given up, so the device is never far from a boot of the stable
slot.
-/

universe u v w

/-- The slot that is kept while a candidate is tried. -/
def Probation.stable {S : Type u} : Probation S → S
  | .settled stable => stable
  | .trial stable _ _ => stable

/-- What a device holds.  A slot without an image may hold anything. -/
structure Update (S : Type u) (A : Type v) where
  probation : Probation S
  installed : S → Option A

inductive UpdateAction (S : Type u) (A : Type v) (B : Type w) where
  | boot (info : B)
  /-- Write a slot and try it from the next boot on. -/
  | stage (candidate : S) (image : Option A)
  /-- The candidate is running, is this image, and becomes the stable one. -/
  | confirm (image : A)
  | other

namespace Update

variable {S : Type u} {A : Type v} {B : Type w}

/-- The slot the next boot chooses. -/
def chosen (limit : Nat) (update : Update S A) : S :=
  (update.probation.decision limit).chosen

theorem stable_next (limit : Nat) (probation : Probation S) :
    (probation.next limit).stable = probation.stable := by
  cases probation with
  | settled stable => rfl
  | trial stable candidate attempts =>
      rw [Probation.next]
      split <;> rfl

variable [DecidableEq S]

def confirm (image : A) (update : Update S A) : Update S A :=
  match update.probation with
  | .settled _ => update
  | .trial _ candidate _ =>
      { probation := .settled candidate
        installed := Function.update update.installed candidate (some image) }

def act (limit : Nat) (update : Update S A) : UpdateAction S A B → Update S A
  | .boot _ => { update with probation := update.probation.next limit }
  | .stage candidate image =>
      { probation := .trial update.probation.stable candidate 0
        installed := Function.update update.installed candidate image }
  | .confirm image => confirm image update
  | .other => update

theorem installed_stage (limit : Nat) (update : Update S A) (candidate : S)
    (image : Option A) (slot : S) :
    (update.act limit (.stage (B := B) candidate image)).installed slot =
      if slot = candidate then image else update.installed slot :=
  Function.update_apply ..

theorem confirm_of_trial {update : Update S A} {stable candidate : S}
    {attempts : Nat}
    (trial : update.probation = .trial stable candidate attempts)
    (image : A) :
    (confirm image update).probation = .settled candidate ∧
      ∀ slot, (confirm image update).installed slot =
        if slot = candidate then some image else update.installed slot := by
  rw [confirm, trial]
  exact ⟨rfl, fun slot => Function.update_apply ..⟩

/-- The device does not overwrite its stable slot. -/
def Allows (update : Update S A) : UpdateAction S A B → Prop
  | .stage candidate _ => candidate ≠ update.probation.stable
  | _ => True

/-- The stable slot has an image. -/
def Sound (update : Update S A) : Prop :=
  ∃ image, update.installed update.probation.stable = some image

theorem Sound.act {update : Update S A} (sound : update.Sound) (limit : Nat)
    {action : UpdateAction S A B} (allowed : update.Allows action) :
    (update.act limit action).Sound := by
  obtain ⟨image, installed⟩ := sound
  cases action with
  | boot info =>
      refine ⟨image, ?_⟩
      simp only [Update.act, stable_next]
      exact installed
  | stage candidate staged =>
      refine ⟨image, ?_⟩
      have apart : update.probation.stable ≠ candidate := allowed.symm
      rw [← installed]
      exact Function.update_of_ne apart _ _
  | confirm confirmed =>
      cases probation : update.probation with
      | settled stable =>
          refine ⟨image, ?_⟩
          simp only [Update.act, confirm, probation]
          rw [← installed, probation]
      | trial stable candidate attempts =>
          obtain ⟨settled, holds⟩ := confirm_of_trial probation confirmed
          refine ⟨confirmed, ?_⟩
          rw [Update.act, settled, holds]
          exact if_pos rfl
  | other => exact ⟨image, installed⟩

/-- The state after some actions. -/
def after (limit : Nat) (update : Update S A)
    (actions : List (UpdateAction S A B)) : Update S A :=
  actions.foldl (Update.act limit) update

/-- Every action is allowed where it is taken. -/
def AllAllowed (limit : Nat) (update : Update S A)
    (actions : List (UpdateAction S A B)) : Prop :=
  ∀ past action future, actions = past ++ action :: future →
    (update.after limit past).Allows action

theorem after_concat (limit : Nat) (update : Update S A)
    (actions : List (UpdateAction S A B)) (action : UpdateAction S A B) :
    update.after limit (actions ++ [action]) =
      (update.after limit actions).act limit action :=
  List.foldl_concat ..

theorem Sound.after {update : Update S A} (sound : update.Sound)
    {limit : Nat} {actions past future : List (UpdateAction S A B)}
    (allowed : update.AllAllowed limit actions)
    (split : actions = past ++ future) :
    (update.after limit past).Sound := by
  induction past using List.reverseRecOn generalizing future with
  | nil => exact sound
  | append_singleton past action ih =>
      rw [List.append_assoc] at split
      have here : (update.after limit past).Allows action :=
        allowed past action future split
      rw [after_concat]
      exact (ih split).act limit here

/-! ## Boots in a row -/

theorem probation_after_boots (limit : Nat) (update : Update S A)
    (boots : List B) :
    (update.after limit (boots.map .boot)).probation =
        (Probation.next limit)^[boots.length] update.probation ∧
      (update.after limit (boots.map .boot)).installed =
        update.installed := by
  induction boots generalizing update with
  | nil => exact ⟨rfl, rfl⟩
  | cons info boots ih => exact ih _

theorem after_append (limit : Nat) (update : Update S A)
    (first second : List (UpdateAction S A B)) :
    update.after limit (first ++ second) =
      (update.after limit first).after limit second :=
  List.foldl_append

/-- Among one more boots than the limit one chooses the slot that is stable
when they begin. -/
theorem exists_boot_of_stable {limit : Nat} (update : Update S A)
    {boots : List B} (many : limit < boots.length) :
    ∃ past info future, boots = past ++ info :: future ∧
      (update.after limit (past.map .boot)).chosen limit =
        update.probation.stable := by
  have at_index {index : Nat} (below : index < boots.length) :
      ∃ past info future, boots = past ++ info :: future ∧
        past.length = index := by
    refine ⟨boots.take index, boots[index], boots.drop (index + 1), ?_, ?_⟩
    · rw [← List.drop_eq_getElem_cons below, List.take_append_drop]
    · rw [List.length_take, Nat.min_eq_left (Nat.le_of_lt below)]
  cases probation : update.probation with
  | settled stable =>
      obtain ⟨past, info, future, split, _⟩ :=
        at_index (Nat.lt_of_le_of_lt (Nat.zero_le _) many)
      refine ⟨past, info, future, split, ?_⟩
      rw [chosen, (probation_after_boots limit update past).1, probation,
        Probation.next_iterate_settled]
      rfl
  | trial stable candidate attempts =>
      obtain ⟨past, info, future, split, index⟩ :=
        at_index (Nat.lt_of_le_of_lt (Nat.sub_le limit attempts) many)
      refine ⟨past, info, future, split, ?_⟩
      rw [chosen, (probation_after_boots limit update past).1, probation,
        Probation.decision_iterate_trial, index,
        if_neg (Nat.lt_irrefl _), if_pos rfl]
      rfl

end Update
