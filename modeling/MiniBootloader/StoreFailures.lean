import MiniBootloader.Library.LostSteps
import MiniBootloader.SlotUpdates

/-!
# Boots whose otadata store fails

`pick` boots the chosen slot even when it could not store the new otadata.
Then the attempt is not counted, or is: which of the two, only the flash can
tell.  Such a boot gives the candidate at most one more attempt.
-/

namespace MiniBootloader

open Probation Words

/-- The boot has a state to store and the store fails. -/
def Boot.storeFails (P : Platform) (boot : Boot) : Bool :=
  match (boot.plan P).2.2 with
  | none => false
  | some newState =>
      !(P.ota.storeToFlash otadataPartitionOffset newState
        (flashAtPick P boot.cause boot.flash)).2.isOk

/-- The boot tries a slot that is pending. -/
def Boot.triesAny (P : Platform) (boot : Boot) : Bool :=
  match (boot.plan P).2.1 with
  | .otaPending _ _ => true
  | _ => false

/-- A boot in a run where stores may fail: what a failed store leaves decodes
to the state before it or to the state it should store.  Between two boots
otadata and the installed images are kept. -/
structure UnsureBoot (P : Platform) (view : OtaView P.ota.OtaData)
    (digest : List UInt8 → Digest) (before : Flash) (boot : Boot)
    (after : Flash) : Prop where
  otadata : SameRange otadataPartitionOffset sectorSize before boot.flash
  images : ∀ slot image, Installed digest before slot image →
    Installed digest boot.flash slot image
  unsure : boot.storeFails P = true → ∀ probation,
    OnProbation P view before probation →
    OnProbation P view after probation ∨
      OnProbation P view after (probation.next P.ota.maxAttempts.toNat)
  left : after = (main P boot.cause boot.flash).flash

section Boots

variable {P : Platform} {view : OtaView P.ota.OtaData}
  {digest : List UInt8 → Digest}

/-- The decision of a boot, and whether its store fails. -/
def Decides (P : Platform) (boot : Boot)
    (label : Decision Slot × Bool) : Prop :=
  ((boot.plan P).1, (boot.plan P).2.1) = plannedFor label.1 ∧
    boot.storeFails P = label.2

theorem Decides.triesAny {boot : Boot} {label : Decision Slot × Bool}
    (decides : Decides P boot label) :
    boot.triesAny P = label.1.isAttempt := by
  have outcome := congrArg Prod.snd decides.1
  simp only at outcome
  rw [Boot.triesAny, outcome]
  cases label.1 <;> rfl

theorem Decides.chosen {boot : Boot} {label : Decision Slot × Bool}
    (decides : Decides P boot label) :
    boot.chosen P = label.1.chosen := by
  have slot := congrArg Prod.fst decides.1
  rw [chosen_plannedFor] at slot
  exact slot

theorem Boot.stored_of_not_fails {boot : Boot}
    (succeeds : boot.storeFails P = false) {newState : P.ota.OtaData}
    (planned : (boot.plan P).2.2 = some newState) :
    (P.ota.storeToFlash otadataPartitionOffset newState
      (flashAtPick P boot.cause boot.flash)).2 = .ok () := by
  rw [Boot.storeFails, planned] at succeeds
  cases stored : (P.ota.storeToFlash otadataPartitionOffset newState
      (flashAtPick P boot.cause boot.flash)).2 with
  | ok done => rfl
  | error error =>
      simp only [stored] at succeeds
      cases succeeds

/-- A boot is a step of the probation, lost where its store fails. -/
theorem UnsureBoot.lossy (policy : P.ota.FollowsPolicy view)
    (durable : P.ota.Durable) (framed : P.Framed) {before after : Flash}
    {boot : Boot} {probation : Probation Slot}
    (on : OnProbation P view before probation)
    (step : UnsureBoot P view digest before boot after) :
    ∃ label probation', Decides P boot label ∧
      Lossy P.ota.maxAttempts.toNat probation label probation' ∧
      OnProbation P view after probation' := by
  obtain ⟨otadata, _, unsure, left⟩ := step
  have planned := plan_of_otadata policy durable.sector
    framed.toReportsFramed on otadata
  cases fails : boot.storeFails P with
  | false =>
      have next : NextBoot P before boot after :=
        ⟨otadata, fun _ => boot.stored_of_not_fails fails, left⟩
      exact ⟨_, _, ⟨planned, fails⟩, .done probation,
        onProbation_next policy durable framed.toReportsFramed on next⟩
  | true =>
      rcases unsure fails probation on with stays | moved
      · exact ⟨_, _, ⟨planned, fails⟩, .lost (.inl rfl), stays⟩
      · exact ⟨_, _, ⟨planned, fails⟩, .lost (.inr rfl), moved⟩

/-- A run of boots is a run of the probation. -/
theorem exists_lossy_run (policy : P.ota.FollowsPolicy view)
    (durable : P.ota.Durable) (framed : P.Framed) {first last : Flash}
    {boots : List Boot} {probation : Probation Slot}
    (on : OnProbation P view first probation)
    (run : Run (UnsureBoot P view digest) first boots last) :
    ∃ labels last', List.Forall₂ (Decides P) boots labels ∧
      Run (Lossy P.ota.maxAttempts.toNat) probation labels last' := by
  obtain ⟨labels, last', decides, abstract, _⟩ :=
    run.forward (fun _ _ _ _ on step => step.lossy policy durable framed on)
      on
  exact ⟨labels, last', decides, abstract⟩

/-- Installed images stay installed. -/
theorem installed_of_unsure (framed : P.Framed) {first last : Flash}
    {boots : List Boot} {slot : Slot} {image : AppImage}
    (installed : Installed digest first slot image)
    (run : Run (UnsureBoot P view digest) first boots last) :
    ∀ boot ∈ boots, Installed digest boot.flash slot image := by
  induction run with
  | nil flash => exact List.forall_mem_nil _
  | @cons first middle last boot boots here rest ih =>
      have found := here.images slot image installed
      have kept := found.bootPick framed boot.cause
      rw [← main_flash, ← here.left] at kept
      exact List.forall_mem_cons.mpr ⟨found, ih kept⟩

/-- Even where the otadata of a boot cannot be stored, a candidate is tried
at most once for every attempt left and once for every failed store; every
other boot chooses the stable slot; and of more boots than that, one jumps
into the stable image. -/
theorem failing_stores_delay_rescue (policy : P.ota.FollowsPolicy view)
    (durable : P.ota.Durable) (framed : P.Framed)
    (streams : P.sha.Streams digest) {first last : Flash}
    {boots : List Boot} {probation : Probation Slot}
    (on : OnProbation P view first probation)
    (run : Run (UnsureBoot P view digest) first boots last) :
    let bound := probation.left P.ota.maxAttempts.toNat +
      boots.countP (Boot.storeFails P)
    boots.countP (Boot.triesAny P) ≤ bound ∧
      (∀ boot ∈ boots, boot.triesAny P = false →
        boot.chosen P = probation.stable) ∧
      ∀ image, Installed digest first probation.stable image →
        bound < boots.length →
        ∃ boot ∈ boots, boot.chosen P = probation.stable ∧
          JumpedInto image (main P boot.cause boot.flash) := by
  intro bound
  obtain ⟨labels, last', decides, abstract⟩ :=
    exists_lossy_run policy durable framed on run
  obtain ⟨attempts, others⟩ := run_lossy abstract
  have tried : boots.countP (Boot.triesAny P) =
      labels.countP fun label => label.1.isAttempt :=
    countP_eq_of_forall₂ (fun _ _ decided => decided.triesAny) decides
  have failed : boots.countP (Boot.storeFails P) =
      labels.countP Prod.snd :=
    countP_eq_of_forall₂ (fun _ _ decided => decided.2) decides
  have tries : boots.countP (Boot.triesAny P) ≤ bound := by
    rw [← tried, ← failed] at attempts
    exact attempts
  have stable : ∀ boot ∈ boots, boot.triesAny P = false →
      boot.chosen P = probation.stable := by
    intro boot member other
    obtain ⟨label, inLabels, decided⟩ := exists_of_forall₂ decides member
    rw [decided.chosen]
    apply others label inLabels
    rw [← decided.triesAny]
    exact other
  refine ⟨tries, stable, ?_⟩
  intro image installed many
  obtain ⟨boot, member, other⟩ : ∃ boot ∈ boots,
      boot.triesAny P = false := by
    by_contra none
    have all : boots.countP (Boot.triesAny P) = boots.length := by
      apply List.countP_eq_length.mpr
      intro boot member
      cases tries : boot.triesAny P with
      | true => rfl
      | false => exact (none ⟨boot, member, tries⟩).elim
    omega
  have chosen := stable boot member other
  have found := installed_of_unsure framed installed run boot member
  exact ⟨boot, member, chosen, found.jumpedInto framed streams chosen⟩

/-- Where a store leaves what was there or what it should store, whatever it
reports, every boot is one of such a run. -/
theorem unsureBoot_of_either (policy : P.ota.FollowsPolicy view)
    (loads : P.ota.LoadsSector) (framed : P.ReportsFramed)
    (either : ∀ state flash,
      let stored := (P.ota.storeToFlash otadataPartitionOffset state flash).1
      P.ota.loadFromFlash otadataPartitionOffset stored =
          P.ota.loadFromFlash otadataPartitionOffset flash ∨
        P.ota.loadFromFlash otadataPartitionOffset stored = .ok state)
    (cause : Cause) (flash : Flash) :
    UnsureBoot P view digest flash ⟨cause, flash⟩
      (main P cause flash).flash := by
  refine ⟨.refl _ _ _, fun _ _ => id, ?_, rfl⟩
  rintro fails probation ⟨state, loaded, rfl⟩
  have load := (loads _ _ _
    (sameRange_otadata_flashAtPick framed cause flash)).trans loaded
  have planned := Boot.plan_of_loaded loads framed ⟨cause, flash⟩ loaded
  have moved := (planAction_selectSlot policy state P.ota.maxAttempts).2
  rw [← planned] at moved
  cases persisted : ((Boot.mk cause flash).plan P).2.2 with
  | none =>
      rw [Boot.storeFails, persisted] at fails
      cases fails
  | some newState =>
      have left : (main P cause flash).flash =
          (P.ota.storeToFlash otadataPartitionOffset newState
            (flashAtPick P cause flash)).1 :=
        Boot.flash_of_some ⟨cause, flash⟩ persisted
      rw [persisted] at moved
      rw [left]
      rcases either newState (flashAtPick P cause flash) with old | new
      · exact .inl ⟨state, old.trans load, rfl⟩
      · exact .inr ⟨newState, new, moved⟩

end Boots

/-! ## A sample -/

/-- A crate whose stores are not reliable: the first one fails and leaves the
state, the one of the second attempt writes it and reports an error. -/
def flakyOta : P4Ota :=
  { StandIn.ota with
    storeToFlash := fun offset state flash =>
      if flash.byte (offset + 3) = 0xFF then
        (flash.program (offset + 3) [0], .error ())
      else if state.attempts = 2 then
        (flash.program offset state.encode.toList, .error ())
      else
        (flash.program offset state.encode.toList, .ok ()) }

def flakyStandIn : Platform := { standIn sampleSha with ota := flakyOta }

theorem touchesSector_flakyOta (offset : UInt32) (state : StandIn.OtaData) :
    TouchesSector offset (flakyOta.storeToFlash offset state) := by
  intro flash
  simp only [flakyOta]
  split
  · refine ⟨rfl, fun address outside => ?_⟩
    apply byte_program_of_not_inRange
    intro inside
    apply outside
    have offsetBound := offset.toNat_lt
    have addressBound := address.toNat_lt
    simp only [InRange, List.length_singleton, sectorSize, UInt32.toNat_sub,
      UInt32.toNat_add, UInt32.reduceToNat] at inside ⊢
    omega
  · split
    · exact touchesSector_program offset _ (Nat.le_of_ble_eq_true rfl) flash
    · exact touchesSector_program offset _ (Nat.le_of_ble_eq_true rfl) flash

theorem loadFromFlash_program (offset : UInt32) (state : StandIn.OtaData)
    (flash : Flash) :
    flakyOta.loadFromFlash offset
      (flash.program offset state.encode.toList) = .ok state :=
  durable_standIn.stored offset state flash rfl

/-- The byte behind the record is not part of it. -/
theorem slice_program_behind (flash : Flash) (offset : UInt32)
    (byte : UInt8) :
    (flash.program (offset + 3) [byte]).slice offset 3 =
      flash.slice offset 3 := by
  apply slice_eq_of_bytes
  intro index below
  apply byte_program_of_not_inRange
  have bound := offset.toNat_lt
  simp only [InRange, List.length_singleton, UInt32.toNat_sub,
    UInt32.toNat_add, UInt32.reduceToNat, UInt32.toNat_ofNat']
  omega

theorem loadFromFlash_flakyOta (offset : UInt32) (state : StandIn.OtaData)
    (flash : Flash) :
    flakyOta.loadFromFlash offset
        (flakyOta.storeToFlash offset state flash).1 =
      flakyOta.loadFromFlash offset flash ∨
    flakyOta.loadFromFlash offset
        (flakyOta.storeToFlash offset state flash).1 = .ok state := by
  by_cases first : flash.byte (offset + 3) = 0xFF
  · left
    have kept := slice_program_behind flash offset 0
    simp only [flakyOta, first, if_true]
    simp only [StandIn.ota, StandIn.loadFromFlash, kept]
  · right
    by_cases second : state.attempts = 2
    · simp only [flakyOta, first, second, if_true, if_false]
      exact loadFromFlash_program offset state flash
    · simp only [flakyOta, first, second, if_false]
      exact loadFromFlash_program offset state flash

theorem followsPolicy_flakyOta :
    flakyOta.FollowsPolicy StandIn.OtaData.view :=
  ⟨followsPolicy_standIn.retry, followsPolicy_standIn.rollback,
    followsPolicy_standIn.settled⟩

theorem durable_flakyOta : flakyOta.Durable := by
  constructor
  · exact durable_standIn.sector
  · intro offset state flash stored
    by_cases first : flash.byte (offset + 3) = 0xFF
    · simp only [flakyOta, first, if_true] at stored
      cases stored
    · by_cases second : state.attempts = 2
      · simp only [flakyOta, first, second, if_true, if_false] at stored
        cases stored
      · simp only [flakyOta, first, second, if_false]
        exact loadFromFlash_program offset state flash

theorem framed_flakyStandIn : flakyStandIn.Framed :=
  ⟨⟨(framed_standIn sampleSha).history, (framed_standIn sampleSha).bootstat⟩,
    touchesSector_flakyOta⟩

/-- The otadata sector as the crate finds it: the state, and whether a store
has failed before. -/
structure FlakySector (flash : Flash) (state : StandIn.OtaData)
    (failed : Bool) : Prop where
  loaded : StandIn.loadFromFlash otadataPartitionOffset flash = .ok state
  marker : flash.byte (otadataPartitionOffset + 3) = 0xFF ↔ failed = false

/-- A store of the flaky crate. -/
theorem FlakySector.store {flash : Flash} {state : StandIn.OtaData}
    {failed : Bool} (sector : FlakySector flash state failed)
    (newState : StandIn.OtaData) :
    (flakyOta.storeToFlash otadataPartitionOffset newState flash).2.isOk =
        (failed && newState.attempts ≠ 2) ∧
      FlakySector
        (flakyOta.storeToFlash otadataPartitionOffset newState flash).1
        (if failed then newState else state) true := by
  cases failed with
  | false =>
      have fresh := sector.marker.mpr rfl
      have kept : (flash.program (otadataPartitionOffset + 3) [0]).slice
          otadataPartitionOffset 3 = flash.slice otadataPartitionOffset 3 :=
        slice_program_behind flash otadataPartitionOffset 0
      have store : flakyOta.storeToFlash otadataPartitionOffset newState
          flash = (flash.program (otadataPartitionOffset + 3) [0],
            .error ()) := if_pos fresh
      rw [store]
      refine ⟨rfl, ?_, ?_⟩
      · have loaded := sector.loaded
        simp only [StandIn.loadFromFlash, kept] at loaded ⊢
        exact loaded
      · have marked : (flash.program (otadataPartitionOffset + 3) [0]).byte
            (otadataPartitionOffset + 3) = 0 := rfl
        rw [marked]
        decide
  | true =>
      have worn : flash.byte (otadataPartitionOffset + 3) ≠ 0xFF :=
        fun fresh => Bool.noConfusion (sector.marker.mp fresh)
      have left : (flakyOta.storeToFlash otadataPartitionOffset newState
          flash).1 = flash.program otadataPartitionOffset
            newState.encode.toList := by
        simp only [flakyOta, worn, if_false]
        split <;> rfl
      have outside : ¬ InRange otadataPartitionOffset
          newState.encode.toList.length (otadataPartitionOffset + 3) := by
        rw [Vector.length_toList]
        decide
      have marker := byte_program_of_not_inRange flash outside
      rw [left]
      refine ⟨?_, loadFromFlash_program _ newState flash, ?_⟩
      · by_cases second : newState.attempts = 2
        · simp [flakyOta, worn, second, Except.isOk, Except.toBool]
        · simp [flakyOta, worn, second, Except.isOk, Except.toBool]
      · rw [marker]
        exact iff_of_false worn (by decide)

/-- Whether the store of the next boot fails, and what it leaves. -/
def flakyStep (state : StandIn.OtaData) (failed : Bool) :
    Bool × StandIn.OtaData × Bool :=
  match (planAction true (StandIn.selectSlot state 3)).2.2 with
  | none => (false, state, failed)
  | some newState =>
      (!(failed && newState.attempts ≠ 2),
        if failed then newState else state, true)

/-- One boot with the flaky crate. -/
theorem FlakySector.boot {flash : Flash} {state : StandIn.OtaData}
    {failed : Bool} (sector : FlakySector flash state failed)
    (cause : Cause) :
    (Boot.mk cause flash).plan flakyStandIn =
        planAction true (StandIn.selectSlot state 3) ∧
      (Boot.mk cause flash).storeFails flakyStandIn =
        (flakyStep state failed).1 ∧
      FlakySector (main flakyStandIn cause flash).flash
        (flakyStep state failed).2.1 (flakyStep state failed).2.2 := by
  have reported := sameRange_otadata_flashAtPick
    framed_flakyStandIn.toReportsFramed cause flash
  have atPick : FlakySector (flashAtPick flakyStandIn cause flash) state
      failed := by
    constructor
    · exact (durable_standIn.sector _ _ _ reported).trans sector.loaded
    · rw [reported.bytes (otadataPartitionOffset + 3) (by decide)]
      exact sector.marker
  have plan : (Boot.mk cause flash).plan flakyStandIn =
      planAction true (StandIn.selectSlot state 3) :=
    Boot.plan_of_loaded durable_flakyOta.sector
      framed_flakyStandIn.toReportsFramed ⟨cause, flash⟩ sector.loaded
  refine ⟨plan, ?_⟩
  rw [flakyStep]
  cases stored : (planAction true (StandIn.selectSlot state 3)).2.2 with
  | none =>
      have nothing : ((Boot.mk cause flash).plan flakyStandIn).2.2 = none :=
        (congrArg (fun plan => plan.2.2) plan).trans stored
      rw [Boot.storeFails, nothing, Boot.flash_of_none _ nothing]
      exact ⟨rfl, atPick⟩
  | some newState =>
      have something : ((Boot.mk cause flash).plan flakyStandIn).2.2 =
          some newState :=
        (congrArg (fun plan => plan.2.2) plan).trans stored
      obtain ⟨ok, left⟩ := atPick.store newState
      rw [Boot.storeFails, something, Boot.flash_of_some _ something]
      exact ⟨congrArg not ok, left⟩

/-- Which of the next stores fail. -/
def flakyFails : Nat → StandIn.OtaData → Bool → List Bool
  | 0, _, _ => []
  | count + 1, state, failed =>
      (flakyStep state failed).1 ::
        flakyFails count (flakyStep state failed).2.1
          (flakyStep state failed).2.2

theorem FlakySector.fails (causes : List Cause) {flash : Flash}
    {state : StandIn.OtaData} {failed : Bool}
    (sector : FlakySector flash state failed) :
    (successiveBoots flakyStandIn causes flash).map
      (Boot.storeFails flakyStandIn) =
        flakyFails causes.length state failed := by
  induction causes generalizing flash state failed with
  | nil => rfl
  | cons cause causes induction =>
      obtain ⟨_, fails, left⟩ := sector.boot cause
      rw [successiveBoots, List.map_cons, fails, induction left]
      rfl

theorem flakySector_trialFlash :
    FlakySector trialFlash ⟨.a, some .b, 0⟩ false := by
  have reader : StandIn.loadFromFlash =
      (standIn sampleSha).ota.loadFromFlash := rfl
  constructor
  · rw [reader]
    exact load_trialFlash sampleSha
  · decide +kernel

/-- Six boots of a candidate that is never confirmed.  The stores of the
first and of the third boot fail. -/
theorem failing_stores_delay_rescue_sample :
    let boots := successiveBoots flakyStandIn
      (List.replicate 6 .superWatchdog) trialFlash
    boots.map (Boot.storeFails flakyStandIn) =
        [true, false, true, false, false, false] ∧
      boots.countP (Boot.triesAny flakyStandIn) ≤ 3 + 2 ∧
      ∃ boot ∈ boots, boot.chosen flakyStandIn = .a ∧
        JumpedInto sampleImage
          (main flakyStandIn boot.cause boot.flash) := by
  intro boots
  have steps (cause : Cause) (flash : Flash) : UnsureBoot flakyStandIn
      StandIn.OtaData.view sampleHash flash ⟨cause, flash⟩
        (main flakyStandIn cause flash).flash :=
    unsureBoot_of_either followsPolicy_flakyOta durable_flakyOta.sector
      framed_flakyStandIn.toReportsFramed
      (loadFromFlash_flakyOta otadataPartitionOffset) cause flash
  obtain ⟨last, run⟩ := exists_run_successiveBoots steps
    (List.replicate 6 .superWatchdog) trialFlash
  have fails : boots.map (Boot.storeFails flakyStandIn) =
      [true, false, true, false, false, false] :=
    (flakySector_trialFlash.fails (List.replicate 6 .superWatchdog)).trans
      (by decide)
  have count : boots.countP (Boot.storeFails flakyStandIn) = 2 := by
    rw [← Function.id_comp (Boot.storeFails flakyStandIn),
      ← List.countP_map, fails]
    rfl
  have reader : flakyStandIn.ota.loadFromFlash = StandIn.loadFromFlash :=
    rfl
  have on : OnProbation flakyStandIn StandIn.OtaData.view trialFlash
      (.trial .a .b 0) := by
    refine ⟨(⟨.a, some .b, 0⟩ : StandIn.OtaData), ?_, rfl⟩
    rw [reader]
    exact flakySector_trialFlash.loaded
  obtain ⟨tries, _, rescued⟩ := failing_stores_delay_rescue
    followsPolicy_flakyOta durable_flakyOta framed_flakyStandIn
    (Sha256.streams_buffered sampleHash) on run
  have left : (Probation.trial Slot.a Slot.b 0).left
      flakyStandIn.ota.maxAttempts.toNat = 3 := rfl
  have length : boots.length = 6 := length_successiveBoots ..
  rw [count, left] at tries rescued
  obtain ⟨boot, member, chosen, jumped⟩ := rescued sampleImage
    installed_trialFlash (by rw [length]; decide)
  exact ⟨fails, tries, boot, member, chosen, jumped⟩

end MiniBootloader
