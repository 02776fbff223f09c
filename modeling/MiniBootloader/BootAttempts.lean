import MiniBootloader.Contracts
import MiniBootloader.DigestGate
import MiniBootloader.Library.Probation
import MiniBootloader.Library.Runs

/-!
# Boot attempts of a pending slot

Successive boots hand otadata to each other through flash.  Along a run in
which nothing else writes it, the plans of `pick` are the decisions of a
probation: the attempts that are left, one rollback, and the stable slot from
then on, whatever the slots hold and however each boot ends.
-/

namespace MiniBootloader

/-! ## The policy as a probation -/

def OtaView.probation {S : Type} (view : OtaView S) (state : S) :
    Probation Slot :=
  match view.pending state with
  | none => .settled (view.stable state)
  | some slot =>
      .trial (view.stable state) slot (view.attempts state).toNat

/-- The slot and the outcome `pick` plans for a decision. -/
def plannedFor : Probation.Decision Slot → Slot × SelectionOutcome
  | .keep slot => (slot, .otaStable slot)
  | .attempt slot number => (slot, .otaPending slot (UInt8.ofNat number))
  | .rollback fromSlot toSlot => (toSlot, .otaRollback fromSlot toSlot)

/-- The policy decides as the probation does, and the state to persist is the
probation's next one. -/
theorem planAction_selectSlot {ota : P4Ota} {view : OtaView ota.OtaData}
    (policy : ota.FollowsPolicy view) (state : ota.OtaData)
    (limit : UInt8) :
    let plan := planAction true (ota.selectSlot state limit)
    (plan.1, plan.2.1) =
        plannedFor ((view.probation state).decision limit.toNat) ∧
      view.probation (plan.2.2.getD state) =
        (view.probation state).next limit.toNat := by
  intro plan
  cases pending : view.pending state with
  | none =>
      have selected := policy.settled state limit pending
      have probation : view.probation state =
          .settled (view.stable state) := by
        simp only [OtaView.probation, pending]
      simp only [plan, selected, planAction, probation, Option.getD_none]
      exact ⟨rfl, rfl⟩
  | some slot =>
      have probation : view.probation state =
          .trial (view.stable state) slot (view.attempts state).toNat := by
        simp only [OtaView.probation, pending]
      rw [probation]
      by_cases more : view.attempts state < limit
      · obtain ⟨newState, selected, kept, counted, stable⟩ :=
          policy.retry state slot limit pending more
        have below := UInt8.lt_iff_toNat_lt.mp more
        have number : (view.attempts state + 1).toNat =
            (view.attempts state).toNat + 1 := by
          have bound := limit.toNat_lt
          rw [UInt8.toNat_add, UInt8.toNat_one]
          exact Nat.mod_eq_of_lt (by omega)
        have attempt : UInt8.ofNat ((view.attempts state).toNat + 1) =
            view.attempts state + 1 := by
          rw [← number, UInt8.ofNat_toNat]
        simp only [plan, selected, planAction, Option.getD_some,
          Probation.decision, Probation.next, if_pos below, plannedFor,
          attempt, OtaView.probation, kept, counted, stable, number,
          and_self]
      · have exhausted : limit ≤ view.attempts state :=
          UInt8.not_lt.mp more
        have above : ¬ (view.attempts state).toNat < limit.toNat :=
          fun below => more (UInt8.lt_iff_toNat_lt.mpr below)
        obtain ⟨newState, selected, cleared, stable⟩ :=
          policy.rollback state slot limit pending exhausted
        simp only [plan, selected, planAction, Option.getD_some,
          Probation.decision, Probation.next, if_neg above, plannedFor,
          OtaView.probation, cleared, stable, and_self]

/-! ## One boot -/

/-- A boot of a run: its reset cause, and the flash it finds. -/
structure Boot where
  cause : Cause
  flash : Flash

namespace Boot

variable (P : Platform)

def plan (boot : Boot) : Slot × SelectionOutcome × Option P.ota.OtaData :=
  pickPlan P.ota (flashAtPick P boot.cause boot.flash)

def chosen (boot : Boot) : Slot :=
  chosenSlot P.ota (flashAtPick P boot.cause boot.flash)

/-- The boot chooses the slot as an attempt on a pending slot. -/
def tries (slot : Slot) (boot : Boot) : Bool :=
  match (boot.plan P).2.1 with
  | .otaPending tried _ => tried = slot
  | _ => false

end Boot

/-- A boot after which `after` is in flash.  Between the previous boot and
this one anything but otadata may have changed, and a new otadata state is
stored successfully. -/
structure NextBoot (P : Platform) (before : Flash) (boot : Boot)
    (after : Flash) : Prop where
  otadata : SameRange otadataPartitionOffset sectorSize before boot.flash
  stored : ∀ newState, (boot.plan P).2.2 = some newState →
    (P.ota.storeToFlash otadataPartitionOffset newState
      (flashAtPick P boot.cause boot.flash)).2 = .ok ()
  left : after = (main P boot.cause boot.flash).flash

section Attempts

variable {P : Platform} {view : OtaView P.ota.OtaData}

/-- Otadata decodes to a state of this probation. -/
def OnProbation (P : Platform) (view : OtaView P.ota.OtaData)
    (flash : Flash) (probation : Probation Slot) : Prop :=
  ∃ state, P.ota.loadFromFlash otadataPartitionOffset flash = .ok state ∧
    view.probation state = probation

/-- What a boot plans on a state that otadata decodes to. -/
theorem Boot.plan_of_loaded (loads : P.ota.LoadsSector)
    (framed : P.ReportsFramed) (boot : Boot) {state : P.ota.OtaData}
    (loaded : P.ota.loadFromFlash otadataPartitionOffset boot.flash =
      .ok state) :
    boot.plan P =
      planAction true (P.ota.selectSlot state P.ota.maxAttempts) := by
  have load := (loads _ _ _ (sameRange_otadata_flashAtPick framed boot.cause
    boot.flash)).trans loaded
  simp only [Boot.plan, pickPlan, bootAction, loadOtadata, load]

/-- A boot that has nothing to store leaves what its reports left. -/
theorem Boot.flash_of_none (boot : Boot)
    (planned : (boot.plan P).2.2 = none) :
    (main P boot.cause boot.flash).flash =
      flashAtPick P boot.cause boot.flash := by
  rw [main_flash, bootPick, pick_flash]
  change (persistState P.ota (boot.plan P).2.2 _).1 = _
  rw [planned]
  rfl

/-- A boot that stores otadata leaves what the store leaves. -/
theorem Boot.flash_of_some (boot : Boot) {newState : P.ota.OtaData}
    (planned : (boot.plan P).2.2 = some newState) :
    (main P boot.cause boot.flash).flash =
      (P.ota.storeToFlash otadataPartitionOffset newState
        (flashAtPick P boot.cause boot.flash)).1 := by
  rw [main_flash, bootPick, pick_flash]
  change (persistState P.ota (boot.plan P).2.2 _).1 = _
  rw [planned]
  rfl

/-- One boot plans what the probation decides, whatever its store does. -/
theorem plan_of_otadata (policy : P.ota.FollowsPolicy view)
    (loads : P.ota.LoadsSector) (framed : P.ReportsFramed)
    {before : Flash} {boot : Boot} {probation : Probation Slot}
    (on : OnProbation P view before probation)
    (same : SameRange otadataPartitionOffset sectorSize before boot.flash) :
    ((boot.plan P).1, (boot.plan P).2.1) =
      plannedFor (probation.decision P.ota.maxAttempts.toNat) := by
  obtain ⟨state, loaded, rfl⟩ := on
  have load := (loads _ _ _ same).trans loaded
  rw [boot.plan_of_loaded loads framed load]
  exact (planAction_selectSlot policy state _).1

/-- One boot moves the probation one step, and makes the step durable. -/
theorem onProbation_next (policy : P.ota.FollowsPolicy view)
    (durable : P.ota.Durable) (framed : P.ReportsFramed)
    {before after : Flash} {boot : Boot} {probation : Probation Slot}
    (on : OnProbation P view before probation)
    (step : NextBoot P before boot after) :
    OnProbation P view after
      (probation.next P.ota.maxAttempts.toNat) := by
  obtain ⟨state, loaded, rfl⟩ := on
  obtain ⟨otadata, stored, rfl⟩ := step
  have load := (durable.sector _ _ _ otadata).trans loaded
  have planned := boot.plan_of_loaded durable.sector framed load
  have moved := (planAction_selectSlot policy state P.ota.maxAttempts).2
  rw [← planned] at moved
  cases persisted : (boot.plan P).2.2 with
  | none =>
      have atPick := sameRange_otadata_flashAtPick framed boot.cause
        boot.flash
      rw [persisted] at moved
      rw [boot.flash_of_none persisted]
      exact ⟨state, (durable.sector _ _ _ atPick).trans load, moved⟩
  | some newState =>
      rw [persisted] at moved
      rw [boot.flash_of_some persisted]
      exact ⟨newState, durable.stored _ _ _ (stored newState persisted),
        moved⟩

/-! ## Runs of boots -/

/-- Every boot of a run plans what the probation decides at that point. -/
theorem plan_of_run (policy : P.ota.FollowsPolicy view)
    (durable : P.ota.Durable) (framed : P.ReportsFramed)
    {first last : Flash} {past future : List Boot} {boot : Boot}
    {probation : Probation Slot}
    (on : OnProbation P view first probation)
    (run : Run (NextBoot P) first (past ++ boot :: future) last) :
    ((boot.plan P).1, (boot.plan P).2.1) =
      plannedFor (Probation.decision P.ota.maxAttempts.toNat
        ((Probation.next P.ota.maxAttempts.toNat)^[past.length]
          probation)) := by
  obtain ⟨before, after, toBefore, step, _⟩ := run.split
  have reached : OnProbation P view before
      ((Probation.next P.ota.maxAttempts.toNat)^[past.length]
        probation) := by
    apply toBefore.simulates on
    intro before boot after probation on step
    exact onProbation_next policy durable framed on step
  exact plan_of_otadata policy durable.sector framed reached step.otadata

/-- The plan of the boot with the given index in a run that starts with a
pending slot: the attempts left, one rollback, the stable slot. -/
def plannedAt (limit attempts : Nat) (stable slot : Slot) (index : Nat) :
    Slot × SelectionOutcome :=
  if index < limit - attempts then
    (slot, .otaPending slot (UInt8.ofNat (attempts + index + 1)))
  else if index = limit - attempts then (stable, .otaRollback slot stable)
  else (stable, .otaStable stable)

theorem plannedFor_iterate (limit attempts index : Nat)
    (stable slot : Slot) :
    plannedFor (Probation.decision limit
        ((Probation.next limit)^[index] (.trial stable slot attempts))) =
      plannedAt limit attempts stable slot index := by
  rw [Probation.decision_iterate_trial, plannedAt]
  split
  · rfl
  · split <;> rfl

theorem plannedAt_tries_iff {limit attempts index : Nat}
    {stable slot : Slot} :
    (∃ number, (plannedAt limit attempts stable slot index).2 =
      .otaPending slot number) ↔ index < limit - attempts := by
  rw [plannedAt]
  split
  · simp [*]
  · split <;> simp [*]

theorem plannedAt_chooses_iff {limit attempts index : Nat}
    {stable slot : Slot} (different : stable ≠ slot) :
    (plannedAt limit attempts stable slot index).1 = slot ↔
      index < limit - attempts := by
  rw [plannedAt]
  split
  · simp [*]
  · split <;> simp [*]

theorem Boot.tries_iff {slot : Slot} {boot : Boot} :
    boot.tries P slot = true ↔
      ∃ number, (boot.plan P).2.1 = .otaPending slot number := by
  rw [Boot.tries]
  split
  next tried number planned => simp [planned]
  next other =>
    constructor
    · intro impossible
      cases impossible
    · rintro ⟨number, planned⟩
      exact (other slot number planned).elim

/-- A pending slot is tried by the first boots of a run, exactly as often as
attempts are left.  Where it is not the stable slot as well, no other boot
chooses it. -/
theorem pending_slot_attempts (policy : P.ota.FollowsPolicy view)
    (durable : P.ota.Durable) (framed : P.ReportsFramed)
    {first last : Flash} {boots : List Boot} {state : P.ota.OtaData}
    {slot : Slot}
    (loaded : P.ota.loadFromFlash otadataPartitionOffset first = .ok state)
    (pending : view.pending state = some slot)
    (run : Run (NextBoot P) first boots last) :
    let stable := view.stable state
    let limit := P.ota.maxAttempts.toNat
    let attempts := (view.attempts state).toNat
    boots.countP (Boot.tries P slot) =
        min (limit - attempts) boots.length ∧
      (stable ≠ slot →
        boots.countP (fun boot => boot.chosen P = slot) =
          min (limit - attempts) boots.length) ∧
      ∀ past boot future, boots = past ++ boot :: future →
        ((boot.plan P).1, (boot.plan P).2.1) =
          plannedAt limit attempts stable slot past.length := by
  intro stable limit attempts
  have on : OnProbation P view first (.trial stable slot attempts) := by
    refine ⟨state, loaded, ?_⟩
    simp only [OtaView.probation, pending, stable, attempts]
  have plans : ∀ past boot future, boots = past ++ boot :: future →
      ((boot.plan P).1, (boot.plan P).2.1) =
        plannedAt limit attempts stable slot past.length := by
    intro past boot future split
    rw [split] at run
    exact (plan_of_run policy durable framed on run).trans
      (plannedFor_iterate limit attempts past.length stable slot)
  refine ⟨?_, ?_, plans⟩
  · apply countP_eq_min_of_first
    intro past boot future split
    have outcome := congrArg Prod.snd (plans past boot future split)
    simp only at outcome
    rw [Boot.tries_iff, outcome, plannedAt_tries_iff]
  · intro different
    apply countP_eq_min_of_first
    intro past boot future split
    have chosen : boot.chosen P =
        (plannedAt limit attempts stable slot past.length).1 :=
      congrArg Prod.fst (plans past boot future split)
    rw [decide_eq_true_iff, chosen, plannedAt_chooses_iff different]

end Attempts

/-! ## Boots that follow each other -/

/-- Boots of which each finds the flash that the one before left. -/
def successiveBoots (P : Platform) : List Cause → Flash → List Boot
  | [], _ => []
  | cause :: causes, flash =>
      ⟨cause, flash⟩ :: successiveBoots P causes (main P cause flash).flash

@[simp] theorem length_successiveBoots (P : Platform) (causes : List Cause)
    (flash : Flash) :
    (successiveBoots P causes flash).length = causes.length := by
  induction causes generalizing flash with
  | nil => rfl
  | cons cause causes induction => simp [successiveBoots, induction]

/-- They are a run if each of them is a step. -/
theorem exists_run_successiveBoots {P : Platform}
    {step : Flash → Boot → Flash → Prop}
    (steps : ∀ cause flash,
      step flash ⟨cause, flash⟩ (main P cause flash).flash)
    (causes : List Cause) (flash : Flash) :
    ∃ last, Run step flash (successiveBoots P causes flash) last := by
  induction causes generalizing flash with
  | nil => exact ⟨flash, .nil flash⟩
  | cons cause causes induction =>
      obtain ⟨last, rest⟩ := induction (main P cause flash).flash
      exact ⟨last, .cons (steps cause flash) rest⟩

/-- A flash whose otadata holds a state. -/
def Flash.withOtaData (state : StandIn.OtaData) : Flash :=
  Flash.erased.program otadataPartitionOffset state.encode.toList

theorem loadFromFlash_withOtaData (sha : Sha256)
    (state : StandIn.OtaData) :
    (standIn sha).ota.loadFromFlash otadataPartitionOffset
      (.withOtaData state) = .ok state :=
  durable_standIn.stored otadataPartitionOffset state .erased rfl

/-- Every boot of the stand-ins stores successfully. -/
theorem nextBoot_standIn (sha : Sha256) (cause : Cause) (flash : Flash) :
    NextBoot (standIn sha) flash ⟨cause, flash⟩
      (main (standIn sha) cause flash).flash :=
  ⟨.refl _ _ _, fun _ _ => rfl, rfl⟩

/-- The last attempt, the rollback, and the stable slot. -/
theorem pending_slot_attempts_sample :
    let P := standIn sampleSha
    let boots := successiveBoots P [.powerOn, .superWatchdog, .powerOn]
      (.withOtaData ⟨.a, some .b, 2⟩)
    boots.countP (Boot.tries P .b) = 1 ∧
      boots.countP (fun boot => boot.chosen P = .b) = 1 ∧
      boots.map (fun boot => ((boot.plan P).1, (boot.plan P).2.1)) =
        [(.b, .otaPending .b 3), (.a, .otaRollback .b .a),
          (.a, .otaStable .a)] := by
  intro P boots
  obtain ⟨last, run⟩ := exists_run_successiveBoots
    (nextBoot_standIn sampleSha) [.powerOn, .superWatchdog, .powerOn]
    (.withOtaData ⟨.a, some .b, 2⟩)
  obtain ⟨tried, chosen, plans⟩ := pending_slot_attempts
    followsPolicy_standIn durable_standIn (reportsFramed_standIn sampleSha)
    (loadFromFlash_withOtaData sampleSha ⟨.a, some .b, 2⟩) rfl run
  refine ⟨tried, chosen (by decide), ?_⟩
  have attempt := plans [] _ _ rfl
  have rollback := plans [_] _ _ rfl
  have stable := plans [_, _] _ _ rfl
  simp only [boots, successiveBoots, List.map_cons, List.map_nil, P, attempt,
    rollback, stable]
  rfl

/-! ## A pending slot that is also the stable one -/

/-- With the attempts used up, no boot should choose the slot, but the
rollback leads to it. -/
theorem rollback_chooses_pending_slot :
    let P := standIn sampleSha
    let state : StandIn.OtaData := ⟨.a, some .a, 3⟩
    let boot : Boot := ⟨.superWatchdog, .withOtaData state⟩
    P.ota.FollowsPolicy StandIn.OtaData.view ∧ P.ota.Durable ∧
      P.ReportsFramed ∧
      P.ota.loadFromFlash otadataPartitionOffset boot.flash = .ok state ∧
      state.pending = some .a ∧
      Run (NextBoot P) boot.flash [boot]
        (main P boot.cause boot.flash).flash ∧
      ¬ [boot].countP (fun boot => boot.chosen P = .a) ≤
        P.ota.maxAttempts.toNat - state.attempts.toNat := by
  intro P state boot
  refine ⟨followsPolicy_standIn, durable_standIn,
    reportsFramed_standIn sampleSha,
    loadFromFlash_withOtaData sampleSha state, rfl,
    .cons (nextBoot_standIn sampleSha _ _) (.nil _), ?_⟩
  decide

end MiniBootloader
