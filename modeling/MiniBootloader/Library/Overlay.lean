import Mathlib.Data.List.Basic

/-!
# Partial maps laid over a total one

A memory is a total map and a write covers some of its addresses.  Writes
done in order lay one partial map over another, so an address holds what the
last write that covers it put there, and what it held before where no write
covers it.
-/

universe u v

namespace Overlay

variable {A : Type u} {B : Type v}

/-- The base where the patch says nothing. -/
def overlay (base : A → B) (patch : A → Option B) : A → B :=
  fun address => (patch address).getD (base address)

/-- The patches laid over the base in order. -/
def overlayAll (base : A → B) (patches : List (A → Option B)) : A → B :=
  patches.foldl overlay base

theorem overlay_of_none {base : A → B} {patch : A → Option B} {address : A}
    (uncovered : patch address = none) :
    overlay base patch address = base address := by
  rw [overlay, uncovered, Option.getD_none]

theorem overlay_of_some {base : A → B} {patch : A → Option B} {address : A}
    {value : B} (covered : patch address = some value) :
    overlay base patch address = value := by
  rw [overlay, covered, Option.getD_some]

@[simp] theorem overlayAll_cons (base : A → B) (patch : A → Option B)
    (patches : List (A → Option B)) :
    overlayAll base (patch :: patches) =
      overlayAll (overlay base patch) patches := rfl

theorem overlayAll_append (base : A → B)
    (first second : List (A → Option B)) :
    overlayAll base (first ++ second) =
      overlayAll (overlayAll base first) second :=
  List.foldl_append

theorem overlayAll_of_uncovered {base : A → B}
    {patches : List (A → Option B)} {address : A}
    (uncovered : ∀ patch ∈ patches, patch address = none) :
    overlayAll base patches address = base address := by
  induction patches generalizing base with
  | nil => rfl
  | cons patch patches ih =>
      rw [List.forall_mem_cons] at uncovered
      rw [overlayAll_cons, ih uncovered.2, overlay_of_none uncovered.1]

/-- The last patch that covers an address decides it. -/
theorem overlayAll_of_last {base : A → B}
    {before after : List (A → Option B)} {patch : A → Option B}
    {address : A} {value : B} (covered : patch address = some value)
    (later : ∀ next ∈ after, next address = none) :
    overlayAll base (before ++ patch :: after) address = value := by
  rw [overlayAll_append, overlayAll_cons, overlayAll_of_uncovered later,
    overlay_of_some covered]

end Overlay
