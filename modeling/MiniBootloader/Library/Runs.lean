import Mathlib.Logic.Function.Iterate
import Mathlib.Data.List.Basic

/-!
# Runs of a labelled step relation

A run lists the labels of its steps in order.  Facts about runs speak of the
labels taken so far, so the induction rule carries an invariant that may
mention the whole past.
-/

universe u v w

section Runs

variable {S : Type u} {L : Type v}

/-- The runs of `step` from one state to another. -/
inductive Run (step : S → L → S → Prop) : S → List L → S → Prop where
  | nil (state : S) : Run step state [] state
  | cons {first middle last : S} {label : L} {labels : List L} :
      step first label middle →
      Run step middle labels last →
      Run step first (label :: labels) last

namespace Run

variable {step : S → L → S → Prop} {first last : S} {labels : List L}

/-- A run splits at every label it takes. -/
theorem split {past future : List L} {label : L}
    (run : Run step first (past ++ label :: future) last) :
    ∃ before after, Run step first past before ∧
      step before label after ∧ Run step after future last := by
  induction past generalizing first with
  | nil =>
      cases run with
      | cons here rest => exact ⟨_, _, .nil _, here, rest⟩
  | cons head past ih =>
      cases run with
      | cons here rest =>
          obtain ⟨before, after, toBefore, middle, fromAfter⟩ := ih rest
          exact ⟨before, after, .cons here toBefore, middle, fromAfter⟩

/-- A run under other labels. -/
theorem relabel {M : Type w} {step' : S → M → S → Prop} (label : L → M)
    (run : Run (fun before l after => step' before (label l) after) first
      labels last) : Run step' first (labels.map label) last := by
  induction run with
  | nil state => exact .nil state
  | cons here _ ih => exact .cons here ih

private theorem invariant_from {motive : List L → S → Prop}
    (preserved : ∀ past before label after, motive past before →
      step before label after → motive (past ++ [label]) after)
    (run : Run step first labels last) (past : List L)
    (holds : motive past first) : motive (past ++ labels) last := by
  induction run generalizing past with
  | nil state => simpa using holds
  | cons here _ ih =>
      have next := ih (past ++ [_]) (preserved past _ _ _ holds here)
      simpa using next

/-- What holds of the empty past and is preserved by every step holds of the
labels of every run. -/
theorem invariant {motive : List L → S → Prop}
    (initial : motive [] first)
    (preserved : ∀ past before label after, motive past before →
      step before label after → motive (past ++ [label]) after)
    (run : Run step first labels last) : motive labels last :=
  invariant_from preserved run [] initial

/-- A step relation that follows an update by its labels keeps following
it. -/
theorem simulates_foldl {T : Type w} {update : T → L → T}
    {motive : S → T → Prop} {abstract : T} (initial : motive first abstract)
    (preserved : ∀ before label after abstract, motive before abstract →
      step before label after → motive after (update abstract label))
    (run : Run step first labels last) :
    motive last (labels.foldl update abstract) := by
  induction run generalizing abstract with
  | nil state => exact initial
  | cons here _ ih =>
      exact ih (preserved _ _ _ _ initial here)

/-- A step relation that follows a function keeps following it. -/
theorem simulates {T : Type w} {next : T → T} {related : S → T → Prop}
    {abstract : T} (initial : related first abstract)
    (preserved : ∀ before label after abstract, related before abstract →
      step before label after → related after (next abstract))
    (run : Run step first labels last) :
    related last (next^[labels.length] abstract) := by
  rw [← List.foldl_const]
  exact run.simulates_foldl initial preserved

/-- A run seen through a view in which some labels show nothing. -/
theorem project {T M : Type w} {step' : T → M → T → Prop} (view : S → T)
    (shown : L → Option M)
    (silent : ∀ before label after, step before label after →
      shown label = none → view after = view before)
    (steps : ∀ before label after label', step before label after →
      shown label = some label' →
      step' (view before) label' (view after))
    (run : Run step first labels last) :
    Run step' (view first) (labels.filterMap shown) (view last) := by
  induction run with
  | nil state => exact .nil _
  | @cons first middle last label labels here rest ih =>
      cases seen : shown label with
      | none =>
          rw [List.filterMap_cons_none seen, ← silent _ _ _ here seen]
          exact ih
      | some label' =>
          rw [List.filterMap_cons_some seen]
          exact .cons (steps _ _ _ _ here seen) ih

/-- A simulation, with labels that match. -/
theorem forward {T M : Type w} {step' : T → M → T → Prop}
    {related : S → T → Prop} {matched : L → M → Prop}
    (steps : ∀ before label after abstract, related before abstract →
      step before label after →
      ∃ label' abstract', matched label label' ∧
        step' abstract label' abstract' ∧ related after abstract')
    {abstract : T} (initial : related first abstract)
    (run : Run step first labels last) :
    ∃ labels' last', List.Forall₂ matched labels labels' ∧
      Run step' abstract labels' last' ∧ related last last' := by
  induction run generalizing abstract with
  | nil state => exact ⟨[], abstract, .nil, .nil _, initial⟩
  | cons here _ ih =>
      obtain ⟨label', middle', same, step, next⟩ :=
        steps _ _ _ _ initial here
      obtain ⟨labels', last', others, run, final⟩ := ih next
      exact ⟨_, last', .cons same others, .cons step run, final⟩

/-- Two runs whose labels match, with an invariant between their states that
matching steps keep: the labels agree step by step. -/
theorem lockstep {T M : Type w} {step' : T → M → T → Prop}
    {related : S → T → Prop} {matched agree : L → M → Prop}
    (steps : ∀ before label after before' label' after',
      related before before' → matched label label' →
      step before label after → step' before' label' after' →
      agree label label' ∧ related after after')
    {first' last' : T} {labels' : List M} (initial : related first first')
    (run : Run step first labels last)
    (run' : Run step' first' labels' last')
    (same : List.Forall₂ matched labels labels') :
    List.Forall₂ agree labels labels' ∧ related last last' := by
  induction run generalizing first' labels' with
  | nil state =>
      cases same
      cases run'
      exact ⟨.nil, initial⟩
  | cons here _ ih =>
      cases same with
      | cons alike others =>
          cases run' with
          | cons here' rest' =>
              obtain ⟨agreed, next⟩ :=
                steps _ _ _ _ _ _ initial alike here here'
              obtain ⟨later, final⟩ := ih next rest' others
              exact ⟨.cons agreed later, final⟩

end Run

theorem exists_of_forall₂ {M : Type w} {matched : L → M → Prop}
    {labels : List L} {labels' : List M}
    (same : List.Forall₂ matched labels labels') {label : L}
    (member : label ∈ labels) : ∃ label' ∈ labels', matched label label' := by
  induction same with
  | nil => cases member
  | cons here _ ih =>
      rcases List.mem_cons.mp member with rfl | later
      · exact ⟨_, List.mem_cons_self, here⟩
      · obtain ⟨label', inRest, found⟩ := ih later
        exact ⟨label', List.mem_cons_of_mem _ inRest, found⟩

/-- Matching labels are counted alike. -/
theorem countP_eq_of_forall₂ {M : Type w} {matched : L → M → Prop}
    {holds : L → Bool} {holds' : M → Bool}
    (alike : ∀ label label', matched label label' →
      holds label = holds' label')
    {labels : List L} {labels' : List M}
    (same : List.Forall₂ matched labels labels') :
    labels.countP holds = labels'.countP holds' := by
  induction same with
  | nil => rfl
  | cons here _ ih =>
      rw [List.countP_cons, List.countP_cons, ih, alike _ _ here]

/-- A predicate that holds exactly on the first `bound` labels is counted
`bound` times, as far as the labels go. -/
theorem countP_eq_min_of_first {holds : L → Bool} {labels : List L}
    {bound : Nat}
    (first : ∀ past label future, labels = past ++ label :: future →
      (holds label = true ↔ past.length < bound)) :
    labels.countP holds = min bound labels.length := by
  induction labels generalizing bound with
  | nil => simp
  | cons head tail ih =>
      have here := first [] head tail rfl
      have later : tail.countP holds = min (bound - 1) tail.length := by
        apply ih
        intro past label future split
        have shifted := first (head :: past) label future (by rw [split]; rfl)
        rw [shifted, List.length_cons]
        omega
      rw [List.countP_cons, later, List.length_cons]
      by_cases positive : 0 < bound
      · rw [if_pos (here.mpr positive)]
        omega
      · rw [if_neg (fun held => positive (here.mp held))]
        omega

end Runs
