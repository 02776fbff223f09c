import Mathlib.Order.BoundedOrder.Lattice
import MiniBootloader.Library.Runs

/-!
# Cells that only lose bits until they are erased

A program operation lowers a cell to its meet with a value, and an erase
operation raises it to the top.  Either may be cut short: a cut program stops
somewhere on the way down, and a cut erase leaves anything.
-/

universe u

namespace ErasableCells

/-- An operation on a cell, and whether it was done or cut short. -/
inductive CellOp (V : Type u) where
  | erase (done : Bool)
  | program (value : V) (done : Bool)

section Order

variable {V : Type u} [SemilatticeInf V]

/-- A cut program leaves the way to its end. -/
theorem inf_eq_of_cut {before value after : V} (low : before ⊓ value ≤ after)
    (high : after ≤ before) : after ⊓ value = before ⊓ value := by
  apply le_antisymm
  · exact inf_le_inf_right value high
  · exact le_inf low inf_le_right

variable [OrderTop V]

inductive Changes : V → CellOp V → V → Prop where
  | erase (before : V) : Changes before (.erase true) ⊤
  | eraseCut (before after : V) : Changes before (.erase false) after
  | program (before value : V) :
      Changes before (.program value true) (before ⊓ value)
  | programCut {before value after : V} (low : before ⊓ value ≤ after)
      (high : after ≤ before) :
      Changes before (.program value false) after

variable {first last value : V} {ops : List (CellOp V)}

/-- Without an erase no bit comes back. -/
theorem run_le (run : Run Changes first ops last)
    (programs : ∀ op ∈ ops, ∃ value done, op = .program value done) :
    last ≤ first := by
  induction run with
  | nil state => exact le_refl state
  | cons here rest ih =>
      obtain ⟨⟨value, done, rfl⟩, others⟩ :=
        List.forall_mem_cons.mp programs
      apply (ih others).trans
      cases here with
      | program => exact inf_le_left
      | programCut low high => exact high

/-- However often one value is programmed, and wherever the tries are cut,
what is left lies between the meet and the start, and is the meet as soon as
one try is done. -/
theorem run_program (run : Run Changes first ops last)
    (same : ∀ op ∈ ops, ∃ done, op = .program value done) :
    first ⊓ value ≤ last ∧
      (.program value true ∈ ops → last = first ⊓ value) := by
  induction run with
  | nil state =>
      exact ⟨inf_le_left, fun done => absurd done List.not_mem_nil⟩
  | @cons first middle last op ops here rest ih =>
      obtain ⟨⟨done, rfl⟩, others⟩ := List.forall_mem_cons.mp same
      obtain ⟨low, finished⟩ := ih others
      cases here with
      | program =>
          rw [inf_assoc, inf_idem] at low
          have lowered : last ≤ first ⊓ value := by
            apply run_le rest
            intro op member
            obtain ⟨done, rfl⟩ := others op member
            exact ⟨value, done, rfl⟩
          exact ⟨low, fun _ => le_antisymm lowered low⟩
      | programCut cutLow cutHigh =>
          rw [inf_eq_of_cut cutLow cutHigh] at low finished
          refine ⟨low, ?_⟩
          intro member
          rcases List.mem_cons.mp member with cut | later
          · cases cut
          · exact finished later

/-- After an erase, a value programmed until it is done is what the cell
holds, however often and wherever the tries were cut. -/
theorem run_erase_program
    (run : Run Changes first (.erase true :: ops) last)
    (same : ∀ op ∈ ops, ∃ done, op = .program value done)
    (done : .program value true ∈ ops) : last = value := by
  cases run with
  | cons erased rest =>
      cases erased with
      | erase =>
          have held := (run_program rest same).2 done
          rw [top_inf_eq] at held
          exact held

end Order

end ErasableCells
