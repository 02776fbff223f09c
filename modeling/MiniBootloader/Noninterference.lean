import MiniBootloader.SlotExtent
import MiniBootloader.BootAttempts

/-!
# What a boot does not depend on

A boot tells its reset cause, a crash dump, the history and the statistics,
but they decide nothing.  Two devices share the OTA policy and the hash and
are given the same updates.  Whatever else sets them apart (the crates of
their reports, why they were reset, what they crashed with, all bytes in a
region that holds the sectors a boot stores to), each boot that does not read
this region does the same on both.
-/

namespace MiniBootloader

open Words

/-- What the reports of a boot use. -/
structure Diagnostics where
  rawOf : Cause → UInt8
  crashdumpIsPresent : UInt32 → Flash → Bool
  history : P4BootHistory
  bootstat : P4Bootstat

def Diagnostics.platform (diagnostics : Diagnostics) (ota : P4Ota)
    (sha : Sha256) : Platform :=
  { rawOf := diagnostics.rawOf
    crashdumpIsPresent := diagnostics.crashdumpIsPresent
    history := diagnostics.history
    bootstat := diagnostics.bootstat
    ota := ota
    sha := sha }

/-! ## What a boot decides -/

/-- A step of a boot that is not a report.  A store is shown without its
outcome. -/
inductive Decisive (S : Type) where
  | store (offset : UInt32) (newState : S)
  | flash (event : Event)

/-- What is left of an event without the reports. -/
def BootEvent.decisive {P : Platform} :
    BootEvent P → Option (Decisive P.ota.OtaData)
  | .report _ => none
  | .pick (.otadataStore offset newState _) => some (.store offset newState)
  | .pick (.flash event) => some (.flash event)
  | .image event => some (.flash event)

/-- The store that a plan calls for. -/
def plannedStores {S : Type} (persist : Option S) : List (Decisive S) :=
  persist.toList.map (.store otadataPartitionOffset)

/-- A boot from the lookups on.  It only reads. -/
def bootPlanned (sha : Sha256) (slot : Slot) (outcome : SelectionOutcome) :
    FlashM Halt UInt32 := do
  let picked ← (bootChosenSlot slot outcome).mapError Halt.pick
  bootImage sha picked.1.offset

section Decision

variable (P : Platform)

theorem decisive_reports (events : List (ReportEvent P.bootstat.Record)) :
    (events.map (BootEvent.report (P := P))).filterMap BootEvent.decisive =
      [] := by
  rw [List.filterMap_map]
  exact List.filterMap_eq_nil_iff.mpr fun _ _ => rfl

theorem decisive_stores (persist : Option P.ota.OtaData) (flash : Flash) :
    ((persistState P.ota persist flash).2.map
      (BootEvent.pick (P := P))).filterMap BootEvent.decisive =
        plannedStores persist := by
  cases persist <;> rfl

theorem decisive_reads {wrap : Event → BootEvent P}
    (shown : ∀ event, (wrap event).decisive = some (.flash event))
    (trace : List Event) :
    (trace.map wrap).filterMap BootEvent.decisive = trace.map .flash := by
  rw [List.filterMap_map, ← List.filterMap_eq_map]
  exact List.filterMap_congr fun event _ => shown event

/-- What a boot does apart from its reports, and how it ends. -/
def bootDecision (boot : Boot) :
    List (Decisive P.ota.OtaData) × Except Halt UInt32 :=
  let run := main P boot.cause boot.flash
  (run.events.filterMap BootEvent.decisive, run.result)

theorem result_bootDecision (boot : Boot) :
    (bootDecision P boot).2 = (main P boot.cause boot.flash).result :=
  rfl

theorem decisive_bootPick (boot : Boot) :
    ((bootPick P boot.cause boot.flash).events.map
      (BootEvent.pick (P := P))).filterMap BootEvent.decisive =
        plannedStores (boot.plan P).2.2 ++
          ((bootChosenSlot (boot.plan P).1 (boot.plan P).2.1).run
            (bootPick P boot.cause boot.flash).flash).trace.map .flash := by
  have events : (bootPick P boot.cause boot.flash).events =
      (persistState P.ota (boot.plan P).2.2
        (flashAtPick P boot.cause boot.flash)).2 ++
      ((bootChosenSlot (boot.plan P).1 (boot.plan P).2.1).run
        (bootPick P boot.cause boot.flash).flash).trace.map .flash :=
    pick_events P.ota _
  have lookups := @decisive_reads P
    (fun event => .pick (.flash event)) (fun _ => rfl)
    ((bootChosenSlot (boot.plan P).1 (boot.plan P).2.1).run
      (bootPick P boot.cause boot.flash).flash).trace
  rw [events, List.map_append, List.filterMap_append, decisive_stores,
    List.map_map, ← lookups]
  rfl

/-- A boot is its plan, the store of the plan, and one computation that
reads what the stores left behind. -/
theorem bootDecision_eq (boot : Boot) :
    bootDecision P boot =
      let plan := boot.plan P
      let planned := (bootPlanned P.sha plan.1 plan.2.1).run
        (bootPick P boot.cause boot.flash).flash
      (plannedStores plan.2.2 ++ planned.trace.map .flash,
        planned.result) := by
  have result : (((bootChosenSlot (boot.plan P).1
      (boot.plan P).2.1).mapError Halt.pick).run
        (bootPick P boot.cause boot.flash).flash).result =
      (bootPick P boot.cause boot.flash).result.mapError Halt.pick :=
    rfl
  cases picked : (bootPick P boot.cause boot.flash).result with
  | error error =>
      rw [picked] at result
      simp only [bootDecision, main_of_pick_error P picked, bootPlanned,
        Traced.run_bind_of_error result, List.filterMap_append,
        decisive_reports, decisive_bootPick, List.nil_append,
        Traced.trace_mapError]
  | ok choice =>
      obtain ⟨chosen, outcome⟩ := choice
      rw [picked] at result
      have image := @decisive_reads P .image (fun _ => rfl)
        ((bootImage P.sha chosen.offset).run
          (bootPick P boot.cause boot.flash).flash).trace
      simp only [bootDecision, main_of_pick_ok P picked, bootPlanned,
        Traced.run_bind_of_ok result, List.filterMap_append,
        decisive_reports, decisive_bootPick, List.nil_append, image,
        Traced.trace_mapError, List.map_append, List.append_assoc]

end Decision

/-! ## The lookups depend on what they read -/

theorem local_findEntry (matching : PartitionEntry → Bool) :
    (findEntry matching).Local sameAt := by
  have table : (forEachEntry (keepFirst matching) none).Local sameAt :=
    (local_read _ _ _).bind fun _ => Traced.local_pure sameAt _
  apply table.mapError.bind
  intro found
  cases found with
  | none => exact Traced.local_throw sameAt _
  | some entry => exact Traced.local_pure sameAt entry

theorem local_tryCandidate
    {lookup : FlashM PartitionError PartitionEntry}
    {outcome : SelectionOutcome}
    {otherwise : FlashM SlotSelectError (PartitionEntry × SelectionOutcome)}
    (lookupLocal : lookup.Local sameAt)
    (otherwiseLocal : otherwise.Local sameAt) :
    (tryCandidate lookup outcome otherwise).Local sameAt := by
  apply lookupLocal.attempt.bind
  intro found
  cases found with
  | error error => exact otherwiseLocal
  | ok part =>
      apply (local_readHeader part.offset).attempt.bind
      intro header
      cases header with
      | error error => exact otherwiseLocal
      | ok header => exact Traced.local_pure sameAt _

theorem local_bootChosenSlot (slot : Slot) (outcome : SelectionOutcome) :
    (bootChosenSlot slot outcome).Local sameAt := by
  rw [bootChosenSlot_eq]
  apply local_tryCandidate (local_findEntry _)
  rw [fallBackToFactory_eq]
  exact local_tryCandidate (local_findEntry _) (Traced.local_throw sameAt _)

theorem local_bootPlanned (sha : Sha256) (slot : Slot)
    (outcome : SelectionOutcome) :
    (bootPlanned sha slot outcome).Local sameAt := by
  apply (local_bootChosenSlot slot outcome).mapError.bind
  intro picked
  exact local_bootImage sha picked.1.offset

/-! ## Two flashes -/

/-- A part of the flash that holds the sectors a boot stores to. -/
structure PrivateRegion where
  holds : UInt32 → Prop
  bootlog : ∀ address,
    InRange BootHistory.bootlogPartitionOffset sectorSize address →
      holds address
  bootstat : ∀ address,
    InRange Bootstat.bootstatPartitionOffset sectorSize address →
      holds address
  otadata : ∀ address, InRange otadataPartitionOffset sectorSize address →
    holds address

namespace PrivateRegion

variable (region : PrivateRegion)

/-- Not a read of a byte of the region. -/
def Avoids {S : Type} : Decisive S → Prop
  | .flash (.romRead start _ len) =>
      ∀ index < len, ¬ region.holds (start + UInt32.ofNat index)
  | _ => True

instance {S : Type} [DecidablePred region.holds] :
    (step : Decisive S) → Decidable (region.Avoids step)
  | .store _ _ => .isTrue trivial
  | .flash (.memWrite _ _) => .isTrue trivial
  | .flash (.onSegment _ _ _) => .isTrue trivial
  | .flash (.romRead start _ len) =>
      inferInstanceAs (Decidable (∀ index < len,
        ¬ region.holds (start + UInt32.ofNat index)))

/-- The flashes differ in the region only, and not in the otadata that is
loaded from it. -/
structure Alike (ota : P4Ota) (flash flash' : Flash) : Prop where
  status : flash'.status = flash.status
  bytes : ∀ address, ¬ region.holds address →
    flash'.byte address = flash.byte address
  otadata : loadOtadata ota flash' = loadOtadata ota flash

variable {region}

/-- A boot keeps the bytes outside the region. -/
theorem byte_bootPick {P : Platform} (framed : P.Framed) (cause : Cause)
    (flash : Flash) {address : UInt32} (outside : ¬ region.holds address) :
    (bootPick P cause flash).flash.byte address = flash.byte address := by
  have only {other : UInt32} (inside : InRange address 1 other) :
      other = address := by
    obtain ⟨index, below, place⟩ :=
      (inRange_iff_exists (by decide)).mp inside
    rw [place, Nat.lt_one_iff.mp below]
    exact UInt32.add_zero address
  have spares {offset : UInt32}
      (held : ∀ other, InRange offset sectorSize other →
        region.holds other) : SparesSector address 1 offset := by
    intro other inside inSector
    rw [only inside] at inSector
    exact outside (held address inSector)
  have same := sameRange_bootPick framed (spares region.bootlog)
    (spares region.bootstat) (spares region.otadata) cause flash
  apply same.bytes
  simp [InRange]

end PrivateRegion

theorem pickPlan_of_loadOtadata {ota : P4Ota} {flash flash' : Flash}
    (load : loadOtadata ota flash' = loadOtadata ota flash) :
    pickPlan ota flash' = pickPlan ota flash := by
  simp only [pickPlan, bootAction, load]

/-- The reports do not touch otadata. -/
theorem loadOtadata_flashAtPick {P : Platform} (framed : P.Framed)
    (loads : P.ota.LoadsSector) (cause : Cause) (flash : Flash) :
    loadOtadata P.ota (flashAtPick P cause flash) =
      loadOtadata P.ota flash := by
  have load := loads otadataPartitionOffset flash
    (flashAtPick P cause flash)
    (sameRange_otadata_flashAtPick framed.toReportsFramed cause flash)
  rw [loadOtadata, load, loadOtadata]

section Plan

variable {ota : P4Ota} {sha : Sha256} {left right : Diagnostics}
  {region : PrivateRegion}

/-- The plan of a boot is the same on two flashes that are alike. -/
theorem PrivateRegion.Alike.plan
    (leftFramed : (left.platform ota sha).Framed)
    (rightFramed : (right.platform ota sha).Framed)
    (loads : ota.LoadsSector) {boot boot' : Boot}
    (alike : region.Alike ota boot.flash boot'.flash) :
    boot'.plan (right.platform ota sha) =
      boot.plan (left.platform ota sha) := by
  apply pickPlan_of_loadOtadata
  exact (loadOtadata_flashAtPick rightFramed loads _ _).trans
    (alike.otadata.trans
      (loadOtadata_flashAtPick leftFramed loads _ _).symm)

/-- A boot that does not read the region does the same on two flashes that
are alike. -/
theorem PrivateRegion.Alike.sameDecision
    (leftFramed : (left.platform ota sha).Framed)
    (rightFramed : (right.platform ota sha).Framed)
    (loads : ota.LoadsSector) {boot boot' : Boot}
    (alike : region.Alike ota boot.flash boot'.flash)
    (avoids : ∀ step ∈ (bootDecision (left.platform ota sha) boot).1,
      region.Avoids step) :
    bootDecision (right.platform ota sha) boot' =
      bootDecision (left.platform ota sha) boot := by
  have plan := alike.plan leftFramed rightFramed loads
  have run : (bootPlanned sha (boot.plan (left.platform ota sha)).1
        (boot.plan (left.platform ota sha)).2.1).run
          (bootPick (right.platform ota sha) boot'.cause boot'.flash).flash =
      (bootPlanned sha (boot.plan (left.platform ota sha)).1
        (boot.plan (left.platform ota sha)).2.1).run
          (bootPick (left.platform ota sha) boot.cause boot.flash).flash := by
    apply local_bootPlanned
    intro event member
    cases event with
    | memWrite address data => trivial
    | onSegment index loadAddr dataLen => trivial
    | romRead start dest len =>
        have unread : region.Avoids (.flash (.romRead start dest len) :
            Decisive ota.OtaData) := by
          apply avoids
          rw [bootDecision_eq]
          exact List.mem_append_right _ (List.mem_map_of_mem member)
        -- What was read lies outside the region, where neither boot has
        -- stored anything.
        constructor
        · rw [status_bootPick rightFramed, status_bootPick leftFramed,
            alike.status]
        · intro _
          apply slice_eq_of_bytes
          intro index below
          have outside := unread index below
          rw [PrivateRegion.byte_bootPick rightFramed _ _ outside,
            PrivateRegion.byte_bootPick leftFramed _ _ outside,
            alike.bytes _ outside]
  rw [bootDecision_eq, bootDecision_eq, plan]
  exact Prod.ext
    (congrArg (fun planned => _ ++ planned.trace.map Decisive.flash) run)
    (congrArg Outcome.result run)

end Plan

/-! ## Two devices -/

/-- A boot, or what the app writes before the next one: new bytes at some
addresses and, if it touches otadata, what is loaded from it afterwards. -/
inductive FleetAction (S : Type) where
  | boot (boot : Boot)
  | update (patch : UInt32 → Option UInt8) (loaded : Option (S × Bool))

section Steps

variable (diagnostics : Diagnostics) (ota : P4Ota) (sha : Sha256)
  (region : PrivateRegion)

/-- One step of a device.  The update says nothing of the bytes the app
writes in the region, apart from the otadata that is loaded from them. -/
inductive FleetStep : Flash → FleetAction ota.OtaData → Flash → Prop where
  | boot {boot : Boot}
      (stored : ∀ newState,
        (boot.plan (diagnostics.platform ota sha)).2.2 = some newState →
        (ota.storeToFlash otadataPartitionOffset newState
          (flashAtPick (diagnostics.platform ota sha) boot.cause
            boot.flash)).2 = .ok ()) :
      FleetStep boot.flash (.boot boot)
        (main (diagnostics.platform ota sha) boot.cause boot.flash).flash
  | update {before after : Flash} {patch : UInt32 → Option UInt8}
      {loaded : Option (ota.OtaData × Bool)}
      (status : after.status = before.status)
      (bytes : ∀ address, ¬ region.holds address →
        after.byte address = (patch address).getD (before.byte address))
      (otadata : loadOtadata ota after =
        loaded.getD (loadOtadata ota before)) :
      FleetStep before (.update patch loaded) after

end Steps

/-- The app writes in the region only. -/
theorem FleetStep.ofAlike {diagnostics : Diagnostics} {ota : P4Ota}
    {sha : Sha256} {region : PrivateRegion} {before after : Flash}
    (alike : region.Alike ota before after) :
    FleetStep diagnostics ota sha region before
      (.update (fun _ => none) none) after :=
  .update alike.status alike.bytes alike.otadata

/-- Both boot, whatever they find, or both are given the same update. -/
inductive SameAction {S : Type} : FleetAction S → FleetAction S → Prop where
  | boot (boot boot' : Boot) : SameAction (.boot boot) (.boot boot')
  | update (patch : UInt32 → Option UInt8) (loaded : Option (S × Bool)) :
      SameAction (.update patch loaded) (.update patch loaded)

/-- If both boot, and the first does not read the region, they decide the
same. -/
def DecideAlike (left right : Diagnostics) (ota : P4Ota) (sha : Sha256)
    (region : PrivateRegion) (action action' : FleetAction ota.OtaData) :
    Prop :=
  ∀ boot boot', action = .boot boot → action' = .boot boot' →
    (∀ step ∈ (bootDecision (left.platform ota sha) boot).1,
      region.Avoids step) →
    bootDecision (right.platform ota sha) boot' =
      bootDecision (left.platform ota sha) boot

section Devices

variable {ota : P4Ota} {sha : Sha256} {left right : Diagnostics}
  {region : PrivateRegion}

/-- What is loaded after a boot is what its plan stored, or what was there
before. -/
theorem loadOtadata_main {P : Platform} (framed : P.Framed)
    (durable : P.ota.Durable) {boot : Boot}
    (stored : ∀ newState, (boot.plan P).2.2 = some newState →
      (P.ota.storeToFlash otadataPartitionOffset newState
        (flashAtPick P boot.cause boot.flash)).2 = .ok ()) :
    loadOtadata P.ota (main P boot.cause boot.flash).flash =
      ((boot.plan P).2.2.map (·, true)).getD
        (loadOtadata P.ota boot.flash) := by
  have left : (main P boot.cause boot.flash).flash =
      (persistState P.ota (boot.plan P).2.2
        (flashAtPick P boot.cause boot.flash)).1 :=
    main_flash P boot.cause boot.flash
  rw [left]
  cases plan : (boot.plan P).2.2 with
  | none =>
      exact loadOtadata_flashAtPick framed durable.sector boot.cause
        boot.flash
  | some newState =>
      have loaded := durable.stored otadataPartitionOffset newState
        (flashAtPick P boot.cause boot.flash) (stored newState plan)
      simp only [persistState, loadOtadata, loaded, Option.map_some,
        Option.getD_some]

/-- Matching steps keep two flashes alike, and boots that match decide the
same. -/
theorem PrivateRegion.Alike.step
    (leftFramed : (left.platform ota sha).Framed)
    (rightFramed : (right.platform ota sha).Framed)
    (durable : ota.Durable) {before before' after after' : Flash}
    {action action' : FleetAction ota.OtaData}
    (alike : region.Alike ota before before')
    (same : SameAction action action')
    (step : FleetStep left ota sha region before action after)
    (step' : FleetStep right ota sha region before' action' after') :
    DecideAlike left right ota sha region action action' ∧
      region.Alike ota after after' := by
  cases same with
  | boot boot boot' =>
      cases step with
      | boot stored =>
          cases step' with
          | boot stored' =>
              refine ⟨?_, ?_, ?_, ?_⟩
              · rintro _ _ ⟨⟩ ⟨⟩ avoids
                exact alike.sameDecision leftFramed rightFramed
                  durable.sector avoids
              · rw [main_flash, main_flash, status_bootPick rightFramed,
                  status_bootPick leftFramed, alike.status]
              · intro address outside
                rw [main_flash, main_flash,
                  PrivateRegion.byte_bootPick rightFramed _ _ outside,
                  PrivateRegion.byte_bootPick leftFramed _ _ outside,
                  alike.bytes _ outside]
              · -- Both store the state of the one plan, or both store none.
                have load := loadOtadata_main leftFramed durable stored
                have load' := loadOtadata_main rightFramed durable stored'
                rw [alike.plan leftFramed rightFramed durable.sector] at load'
                refine load'.trans (Eq.trans ?_ load.symm)
                exact congrArg _ alike.otadata
  | update patch loaded =>
      cases step with
      | update status bytes otadata =>
          cases step' with
          | update status' bytes' otadata' =>
              refine ⟨?_, ?_, ?_, ?_⟩
              · rintro boot boot' ⟨⟩
              · rw [status', status, alike.status]
              · intro address outside
                rw [bytes' address outside, bytes address outside,
                  alike.bytes address outside]
              · rw [otadata', otadata, alike.otadata]

/-- Two devices that start alike and are given the same updates: each boot
of the one that does not read the region and the boot of the other at the
same place choose the same slot and store the same state, read and copy the
same, and end the same. -/
theorem boots_told_apart_only_by_reads
    (leftFramed : (left.platform ota sha).Framed)
    (rightFramed : (right.platform ota sha).Framed)
    (durable : ota.Durable) {first last first' last' : Flash}
    {actions actions' : List (FleetAction ota.OtaData)}
    (alike : region.Alike ota first first')
    (run : Run (FleetStep left ota sha region) first actions last)
    (run' : Run (FleetStep right ota sha region) first' actions' last')
    (same : List.Forall₂ SameAction actions actions') :
    List.Forall₂ (DecideAlike left right ota sha region) actions
      actions' := by
  refine (run.lockstep ?_ alike run' same).1
  intro before action after before' action' after' alike same step step'
  exact alike.step leftFramed rightFramed durable same step step'

end Devices

/-! ## A sample -/

def plainDiagnostics : Diagnostics :=
  { rawOf := fun _ => 0
    crashdumpIsPresent := fun offset flash => flash.byte offset == 0xD0
    history := StandIn.history
    bootstat := StandIn.bootstat }

/-- Reports that always see a crash and can never store their history. -/
def failingDiagnostics : Diagnostics :=
  { rawOf := fun _ => 1
    crashdumpIsPresent := fun _ _ => true
    history :=
      { StandIn.history with
        storeToFlash := fun _ _ flash => (flash, .error ()) }
    bootstat := StandIn.bootstat }

/-- A sector between otadata and the app slots. -/
theorem inFront_of_sector {offset address : UInt32}
    (front : 0xF000 ≤ offset.toNat ∧ offset.toNat + sectorSize ≤ 0x14000)
    (inside : InRange offset sectorSize address) :
    InRange otadataPartitionOffset 0x5000 address := by
  have place := (inRange_iff_of_le (by omega)).mp inside
  have otadata : otadataPartitionOffset.toNat = 0xF000 := rfl
  apply (inRange_iff_of_le (by decide)).mpr
  omega

/-- Otadata and everything up to the app slots. -/
def frontRegion : PrivateRegion :=
  { holds := InRange otadataPartitionOffset 0x5000
    bootlog := fun _ => inFront_of_sector (by decide)
    bootstat := fun _ => inFront_of_sector (by decide)
    otadata := fun _ => inFront_of_sector (by decide) }

instance : DecidablePred frontRegion.holds := fun address =>
  inferInstanceAs (Decidable (InRange otadataPartitionOffset 0x5000 address))

theorem platform_plainDiagnostics :
    plainDiagnostics.platform StandIn.ota sampleSha = standIn sampleSha :=
  rfl

theorem framed_plainDiagnostics :
    (plainDiagnostics.platform StandIn.ota sampleSha).Framed :=
  framed_standIn sampleSha

theorem framed_failingDiagnostics :
    (failingDiagnostics.platform StandIn.ota sampleSha).Framed := by
  obtain ⟨⟨_, bootstat⟩, ota⟩ := framed_standIn sampleSha
  refine ⟨⟨?_, bootstat⟩, ota⟩
  intro offset record flash
  exact ⟨rfl, fun _ _ => rfl⟩

/-- The sample device after a crash. -/
def dumpedFlash : Flash :=
  (oneSlotFlash .a).patch crashdumpPartitionOffset 0xD0

theorem alike_dumpedFlash :
    frontRegion.Alike StandIn.ota (oneSlotFlash .a) dumpedFlash := by
  have patched {address : UInt32}
      (different : address ≠ crashdumpPartitionOffset) :
      dumpedFlash.byte address = (oneSlotFlash .a).byte address :=
    byte_patch_of_ne _ _ different
  have kept : SameRange otadataPartitionOffset sectorSize
      (oneSlotFlash .a) dumpedFlash := by
    refine ⟨?_, fun _ _ _ => rfl⟩
    intro address inside
    apply patched
    rintro rfl
    exact absurd inside (by decide)
  refine ⟨rfl, ?_, ?_⟩
  · intro address outside
    apply patched
    rintro rfl
    exact outside (by decide)
  · rw [loadOtadata, durable_standIn.sector _ _ _ kept, loadOtadata]

/-- After its app crashed, reset by a watchdog and with reports that fail,
the sample device boots as it does after power-on. -/
theorem boots_told_apart_only_by_reads_sample :
    (bootDecision (plainDiagnostics.platform StandIn.ota sampleSha)
        ⟨.powerOn, oneSlotFlash .a⟩).2 = .ok 0x4FF50000 ∧
      bootDecision (failingDiagnostics.platform StandIn.ota sampleSha)
          ⟨.superWatchdog, dumpedFlash⟩ =
        bootDecision (plainDiagnostics.platform StandIn.ota sampleSha)
          ⟨.powerOn, oneSlotFlash .a⟩ := by
  have booted : (bootDecision
      (plainDiagnostics.platform StandIn.ota sampleSha)
      ⟨.powerOn, oneSlotFlash .a⟩).2 = .ok 0x4FF50000 := by
    rw [result_bootDecision, platform_plainDiagnostics]
    exact main_firstSlot
  refine ⟨booted, ?_⟩
  have avoids : ∀ step ∈ (bootDecision
      (plainDiagnostics.platform StandIn.ota sampleSha)
      ⟨.powerOn, oneSlotFlash .a⟩).1, frontRegion.Avoids step := by
    decide +kernel
  have start : frontRegion.Alike StandIn.ota (oneSlotFlash .a)
      (oneSlotFlash .a) :=
    ⟨rfl, fun _ _ => rfl, rfl⟩
  have boots := boots_told_apart_only_by_reads framed_plainDiagnostics
    framed_failingDiagnostics durable_standIn start
    (.cons (.ofAlike start) (.cons (@FleetStep.boot _ _ _ _
      ⟨.powerOn, oneSlotFlash .a⟩ fun _ _ => rfl) (.nil _)))
    (.cons (.ofAlike alike_dumpedFlash) (.cons (@FleetStep.boot _ _ _ _
      ⟨.superWatchdog, dumpedFlash⟩ fun _ _ => rfl) (.nil _)))
    (.cons (.update _ _) (.cons (.boot _ _) .nil))
  cases boots with
  | cons _ boots =>
      cases boots with
      | cons second _ => exact second _ _ rfl rfl avoids

end MiniBootloader
