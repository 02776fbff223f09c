import MiniBootloader.SlotExtent
import MiniBootloader.Library.Runs

/-!
# Counting panics

A device alternates between boots and runs of the app.  The crash dump that
makes a boot record a panic is written by the app and erased by it later, so
whether it speaks of the last run depends on everything done since.
-/

namespace MiniBootloader

open Words

def Platform.dumpPresent (P : Platform) (flash : Flash) : Bool :=
  P.crashdumpIsPresent crashdumpPartitionOffset flash

/-! ## The records of a boot -/

/-- A bootstat record with the panic reason is appended. -/
def ReportEvent.isPanicReset {R : Type} : ReportEvent R → Bool
  | .bootstat _ reason _ _ stored => reason = .panicReset && stored
  | .bootHistory _ _ _ => false

/-- A boot-history entry with the crash tag is appended. -/
def ReportEvent.isCrashRecovery {R : Type} : ReportEvent R → Bool
  | .bootHistory _ entry stored => entry.reason = .crashRecovery && stored
  | .bootstat _ _ _ _ _ => false

/-- A record is appended to the log of the report, for any reason. -/
def ReportEvent.storesBootstat {R : Type} : ReportEvent R → Bool
  | .bootstat _ _ _ _ stored => stored
  | .bootHistory _ _ _ => false

def ReportEvent.storesHistory {R : Type} : ReportEvent R → Bool
  | .bootHistory _ _ stored => stored
  | .bootstat _ _ _ _ _ => false

/-- The reports of a boot that satisfy a test. -/
def reportsAny (P : Platform) (test : ReportEvent P.bootstat.Record → Bool)
    (cause : Cause) (flash : Flash) : Bool :=
  (main P cause flash).events.any fun event =>
    match event with
    | .report report => test report
    | .pick _ => false
    | .image _ => false

section Records

variable {P : Platform} {cause : Cause} {flash : Flash}

theorem reportsAny_eq {test : ReportEvent P.bootstat.Record → Bool} :
    reportsAny P test cause flash = (recordBoot P cause flash).2.any test := by
  rw [reportsAny]
  cases picked : (bootPick P cause flash).result with
  | error error => simp [main_of_pick_error P picked, Function.comp_def]
  | ok choice =>
      obtain ⟨chosen, outcome⟩ := choice
      simp [main_of_pick_ok P picked, Function.comp_def]

/-- The reasons of the two reports follow the crash dump, and the reset cause
where there is none. -/
theorem recordBoot_reports (P : Platform) (cause : Cause) (flash : Flash) :
    ∃ historyStored record bootstatStored,
      (recordBoot P cause flash).2 =
        [.bootHistory BootHistory.bootlogPartitionOffset
          ⟨0, 0, if P.dumpPresent flash then .crashRecovery
            else BootHistory.mapCauseToReason cause⟩ historyStored,
        .bootstat Bootstat.bootstatPartitionOffset
          (if P.dumpPresent flash then .panicReset
            else Bootstat.mapCauseToReason cause)
          (P.rawOf cause) record bootstatStored] :=
  ⟨_, _, _, rfl⟩

theorem dumpPresent_of_panicReset
    (records : reportsAny P ReportEvent.isPanicReset cause flash = true) :
    P.dumpPresent flash = true := by
  by_contra absent
  obtain ⟨historyStored, record, bootstatStored, reports⟩ :=
    recordBoot_reports P cause flash
  rw [reportsAny_eq, reports] at records
  simp [absent, ReportEvent.isPanicReset,
    Bootstat.mapCauseToReason_ne_panicReset] at records

theorem dumpPresent_of_crashRecovery
    (records : reportsAny P ReportEvent.isCrashRecovery cause flash =
      true) :
    P.dumpPresent flash = true := by
  by_contra absent
  obtain ⟨historyStored, record, bootstatStored, reports⟩ :=
    recordBoot_reports P cause flash
  rw [reportsAny_eq, reports] at records
  simp [absent, ReportEvent.isCrashRecovery,
    BootHistory.mapCauseToReason_ne_crashRecovery] at records

/-- A boot that finds a dump stores every record as that of a panic. -/
theorem records_of_dumpPresent (present : P.dumpPresent flash = true) :
    reportsAny P ReportEvent.isPanicReset cause flash =
        reportsAny P ReportEvent.storesBootstat cause flash ∧
      reportsAny P ReportEvent.isCrashRecovery cause flash =
        reportsAny P ReportEvent.storesHistory cause flash := by
  obtain ⟨historyStored, record, bootstatStored, reports⟩ :=
    recordBoot_reports P cause flash
  simp only [reportsAny_eq, reports, present, if_true]
  simp [ReportEvent.isPanicReset, ReportEvent.isCrashRecovery,
    ReportEvent.storesBootstat, ReportEvent.storesHistory]

end Records

/-! ## The device -/

/-- What the chip is doing.  `reset` lasts until a boot goes through
`main`. -/
inductive Mode where
  | reset
  | app
  | heartbeat
  deriving DecidableEq, Repr

structure Device where
  flash : Flash
  mode : Mode

inductive Action where
  /-- The app writes a crash dump, and the chip resets. -/
  | panic
  /-- The app erases the dump after forwarding it. -/
  | erase
  /-- A reset without a panic. -/
  | reset
  /-- A boot through `main`, on the flash it finds. -/
  | boot (cause : Cause) (flash : Flash)

/-- The mode a boot ends in. -/
def modeAfter : Except Halt UInt32 → Mode
  | .ok _ => .app
  | .error _ => .heartbeat

/-- The steps of a device.  The app may change anything else in flash along
with what its action says of the dump. -/
inductive DeviceStep (P : Platform) : Device → Action → Device → Prop where
  | panic {flash flash' : Flash} :
      P.dumpPresent flash' = true →
      DeviceStep P ⟨flash, .app⟩ .panic ⟨flash', .reset⟩
  | erase {flash flash' : Flash} :
      P.dumpPresent flash' = false →
      DeviceStep P ⟨flash, .app⟩ .erase ⟨flash', .app⟩
  | reset {flash flash' : Flash} {mode : Mode} :
      P.dumpPresent flash' = P.dumpPresent flash →
      DeviceStep P ⟨flash, mode⟩ .reset ⟨flash', .reset⟩
  | boot (cause : Cause) (flash : Flash) :
      DeviceStep P ⟨flash, .reset⟩ (.boot cause flash)
        ⟨(main P cause flash).flash,
          modeAfter (main P cause flash).result⟩

namespace Action

variable (P : Platform)

def isPanic : Action → Bool
  | .panic => true
  | _ => false

def recordsPanicReset : Action → Bool
  | .boot cause flash => reportsAny P ReportEvent.isPanicReset cause flash
  | _ => false

def recordsCrashRecovery : Action → Bool
  | .boot cause flash =>
      reportsAny P ReportEvent.isCrashRecovery cause flash
  | _ => false

/-- A boot that finds a crash dump. -/
def findsDump : Action → Bool
  | .boot _ flash => P.dumpPresent flash
  | _ => false

variable {P}

theorem findsDump_of_recordsPanicReset {action : Action}
    (records : action.recordsPanicReset P = true) :
    action.findsDump P = true := by
  cases action with
  | boot cause flash => exact dumpPresent_of_panicReset records
  | panic | erase | reset => cases records

theorem findsDump_of_recordsCrashRecovery {action : Action}
    (records : action.recordsCrashRecovery P = true) :
    action.findsDump P = true := by
  cases action with
  | boot cause flash => exact dumpPresent_of_crashRecovery records
  | panic | erase | reset => cases records

end Action

/-- The last run ended in a panic.  A reset before the next boot does not end
a run. -/
inductive EndedInPanic : List Action → Prop where
  | panic (past : List Action) : EndedInPanic (past ++ [.panic])
  | reset {past : List Action} :
      EndedInPanic past → EndedInPanic (past ++ [.reset])

/-! ## Runs in which dumps are erased in time -/

/-- A reset ends a run only after the app has erased the dump of an earlier
panic. -/
def ErasedInTime (P : Platform) (device : Device) (action : Action) : Prop :=
  action = .reset → device.mode ≠ .reset →
    P.dumpPresent device.flash = false

/-- What the past of a device says about the dump it holds. -/
structure PanicsCounted (P : Platform) (past : List Action)
    (device : Device) : Prop where
  counted : past.countP (Action.findsDump P) ≤ past.countP Action.isPanic
  pending : device.mode = .reset → P.dumpPresent device.flash = true →
    EndedInPanic past ∧
      past.countP (Action.findsDump P) < past.countP Action.isPanic

section Counted

variable {P : Platform}

theorem modeAfter_ne_reset (result : Except Halt UInt32) :
    modeAfter result ≠ .reset := by
  cases result <;> simp [modeAfter]

/-- Every step that meets the condition keeps the count. -/
theorem PanicsCounted.step {past : List Action} {before after : Device}
    {action : Action} (counted : PanicsCounted P past before)
    (taken : DeviceStep P before action after)
    (inTime : ErasedInTime P before action) :
    PanicsCounted P (past ++ [action]) after := by
  obtain ⟨bound, pending⟩ := counted
  have counts (test : Action → Bool) : (past ++ [action]).countP test =
      past.countP test + if test action then 1 else 0 := by
    rw [List.countP_append, List.countP_singleton]
  have finds := counts (Action.findsDump P)
  have panics := counts Action.isPanic
  cases taken with
  | panic present =>
      simp only [Action.findsDump, Action.isPanic, Bool.false_eq_true,
        if_false, if_true] at finds panics
      constructor
      · omega
      · intro _ _
        exact ⟨.panic past, by omega⟩
  | erase absent =>
      simp only [Action.findsDump, Action.isPanic, Bool.false_eq_true,
        if_false] at finds panics
      constructor
      · omega
      · intro mode
        cases mode
  | @reset flash flash' mode kept =>
      simp only [Action.findsDump, Action.isPanic, Bool.false_eq_true,
        if_false] at finds panics
      constructor
      · omega
      · intro _ present
        rw [kept] at present
        by_cases resetting : mode = .reset
        · obtain ⟨ended, fewer⟩ := pending resetting present
          exact ⟨.reset ended, by omega⟩
        · have absent := inTime rfl resetting
          rw [absent] at present
          cases present
  | boot cause flash =>
      simp only [Action.findsDump, Action.isPanic, Bool.false_eq_true,
        if_false] at finds panics
      constructor
      · by_cases present : P.dumpPresent flash = true
        · have fewer := (pending rfl present).2
          simp only [present, if_true] at finds
          omega
        · simp only [present, Bool.false_eq_true, if_false] at finds
          omega
      · intro mode
        exact (modeAfter_ne_reset _ mode).elim

/-- The steps that meet the condition. -/
def StepInTime (P : Platform) (before : Device) (action : Action)
    (after : Device) : Prop :=
  DeviceStep P before action after ∧ ErasedInTime P before action

theorem panicsCounted_of_run {first last : Device} {actions : List Action}
    (clean : P.dumpPresent first.flash = false)
    (run : Run (StepInTime P) first actions last) :
    PanicsCounted P actions last := by
  apply run.invariant
  · refine ⟨Nat.le_refl _, ?_⟩
    intro _ present
    rw [clean] at present
    cases present
  · intro past before action after counted taken
    exact counted.step taken.1 taken.2

/-- A boot that finds a dump boots after a panic. -/
theorem endedInPanic_of_findsDump {first last : Device}
    {past future : List Action} {action : Action}
    (clean : P.dumpPresent first.flash = false)
    (run : Run (StepInTime P) first (past ++ action :: future) last)
    (finds : action.findsDump P = true) : EndedInPanic past := by
  obtain ⟨before, after, toBefore, ⟨taken, _⟩, _⟩ := run.split
  have counted := panicsCounted_of_run clean toBefore
  cases taken with
  | boot cause flash => exact (counted.pending rfl finds).1
  | panic | erase | reset => cases finds

end Counted

/-! ## Dumps that are not erased -/

/-- `is_present` looks at the first sector of its partition only. -/
def Platform.ReadsCrashdump (P : Platform) : Prop :=
  ∀ flash flash',
    SameRange crashdumpPartitionOffset sectorSize flash flash' →
    P.dumpPresent flash' = P.dumpPresent flash

/-- A boot neither writes nor erases a dump. -/
theorem dumpPresent_main {P : Platform} (reads : P.ReadsCrashdump)
    (framed : P.Framed) (cause : Cause) (flash : Flash) :
    P.dumpPresent (main P cause flash).flash = P.dumpPresent flash := by
  apply reads
  rw [main_flash]
  obtain ⟨bootlog, bootstat⟩ := sparesReports_of_front
    (by decide : crashdumpPartitionOffset.toNat + sectorSize ≤ 0x12000)
  apply sameRange_bootPick framed bootlog bootstat
  exact sparesSector_of_apart (by decide)

theorem EndedInPanic.last {past : List Action} {action : Action}
    (ended : EndedInPanic (past ++ [action])) :
    action = .panic ∨ action = .reset ∧ EndedInPanic past := by
  generalize whole : past ++ [action] = actions at ended
  cases ended with
  | panic earlier =>
      obtain ⟨_, same⟩ := List.append_inj' whole rfl
      cases same
      exact .inl rfl
  | @reset earlier ended =>
      obtain ⟨rfl, same⟩ := List.append_inj' whole rfl
      cases same
      exact .inr ⟨rfl, ended⟩

/-- Resets do not hide how the last run ended. -/
theorem EndedInPanic.before_resets {past resets : List Action}
    (only : ∀ action ∈ resets, action = .reset)
    (ended : EndedInPanic (past ++ resets)) : EndedInPanic past := by
  induction resets generalizing past with
  | nil => rwa [List.append_nil] at ended
  | cons action resets ih =>
      obtain ⟨rfl, later⟩ := List.forall_mem_cons.mp only
      rw [List.append_cons] at ended
      rcases (ih later ended).last with impossible | ⟨_, earlier⟩
      · cases impossible
      · exact earlier

/-- After a panic nothing runs until the next boot. -/
theorem mode_of_endedInPanic {P : Platform} {first last : Device}
    {actions : List Action} (run : Run (StepInTime P) first actions last) :
    EndedInPanic actions → last.mode = .reset := by
  apply run.invariant
    (motive := fun past device => EndedInPanic past → device.mode = .reset)
  · intro ended
    generalize none : ([] : List Action) = actions at ended
    cases ended <;> simp at none
  · intro past before action after _ taken ended
    rcases ended.last with rfl | ⟨rfl, _⟩
    · cases taken.1
      rfl
    · cases taken.1
      rfl

theorem dumpPresent_resets {P : Platform} {before after : Device}
    {resets : List Action} (only : ∀ action ∈ resets, action = .reset)
    (run : Run (DeviceStep P) before resets after) :
    P.dumpPresent after.flash = P.dumpPresent before.flash := by
  induction run with
  | nil state => rfl
  | cons here rest ih =>
      obtain ⟨rfl, later⟩ := List.forall_mem_cons.mp only
      rw [ih later]
      cases here with
      | reset kept => exact kept

/-- The condition is needed: when a reset ends a run that still holds a dump,
the next boot stores its records as those of a panic, and that run did not
end in one. -/
theorem stale_dump_is_counted {P : Platform}
    {first device device' after : Device} {past resets : List Action}
    {cause : Cause} {flash : Flash}
    (run : Run (StepInTime P) first past device)
    (late : ¬ ErasedInTime P device .reset)
    (only : ∀ action ∈ resets, action = .reset)
    (toBoot : Run (DeviceStep P) device resets device')
    (boot : DeviceStep P device' (.boot cause flash) after) :
    ¬ EndedInPanic (past ++ resets) ∧
      reportsAny P ReportEvent.isPanicReset cause flash =
        reportsAny P ReportEvent.storesBootstat cause flash ∧
      reportsAny P ReportEvent.isCrashRecovery cause flash =
        reportsAny P ReportEvent.storesHistory cause flash := by
  simp only [ErasedInTime, forall_const, not_forall] at late
  obtain ⟨running, stale⟩ := late
  constructor
  · intro ended
    exact running (mode_of_endedInPanic run (ended.before_resets only))
  · apply records_of_dumpPresent
    have kept := dumpPresent_resets only toBoot
    cases boot
    rw [kept]
    exact eq_true_of_ne_false stale

/-! ## A sample -/

theorem readsCrashdump_standIn (sha : Sha256) :
    (standIn sha).ReadsCrashdump := by
  intro flash flash' same
  have byte := same.bytes crashdumpPartitionOffset (by decide)
  simp only [Platform.dumpPresent, standIn, byte]

/-- The stand-ins store every record. -/
theorem reportsAny_standIn (sha : Sha256) (cause : Cause) (flash : Flash) :
    reportsAny (standIn sha) ReportEvent.isPanicReset cause flash =
        (standIn sha).dumpPresent flash ∧
      reportsAny (standIn sha) ReportEvent.isCrashRecovery cause flash =
        (standIn sha).dumpPresent flash := by
  have reports : ∃ record,
      (recordBoot (standIn sha) cause flash).2 =
        [.bootHistory BootHistory.bootlogPartitionOffset
          ⟨0, 0, if (standIn sha).dumpPresent flash then .crashRecovery
            else BootHistory.mapCauseToReason cause⟩ true,
        .bootstat Bootstat.bootstatPartitionOffset
          (if (standIn sha).dumpPresent flash then .panicReset
            else Bootstat.mapCauseToReason cause) 0 record true] :=
    ⟨_, rfl⟩
  obtain ⟨record, reports⟩ := reports
  simp only [reportsAny_eq, reports]
  cases (standIn sha).dumpPresent flash with
  | false =>
      simp [ReportEvent.isPanicReset, ReportEvent.isCrashRecovery,
        Bootstat.mapCauseToReason_ne_panicReset,
        BootHistory.mapCauseToReason_ne_crashRecovery]
  | true => simp [ReportEvent.isPanicReset, ReportEvent.isCrashRecovery]

/-- The sectors that hold the crash dump and the reports. -/
def reportSectors : List UInt32 :=
  [crashdumpPartitionOffset, BootHistory.bootlogPartitionOffset,
    Bootstat.bootstatPartitionOffset]

theorem forall_mem_reportSectors {holds : UInt32 → Prop} :
    (∀ offset ∈ reportSectors, holds offset) ↔
      holds crashdumpPartitionOffset ∧
        holds BootHistory.bootlogPartitionOffset ∧
        holds Bootstat.bootstatPartitionOffset := by
  rw [reportSectors, List.forall_mem_cons, List.forall_mem_cons,
    List.forall_mem_singleton]

/-- The flash differs from the sample in these sectors only. -/
structure ReportsApart (flash : Flash) : Prop where
  status : flash.status = (oneSlotFlash .a).status
  byte : ∀ address,
    (∀ offset ∈ reportSectors, ¬ InRange offset sectorSize address) →
    flash.byte address = (oneSlotFlash .a).byte address

/-- The stand-ins with another crate for the bootstat records. -/
def reportingStandIn (bootstat : P4Bootstat) : Platform :=
  { standIn sampleSha with bootstat := bootstat }

namespace ReportsApart

variable {flash : Flash}

theorem sample : ReportsApart (oneSlotFlash .a) :=
  ⟨rfl, fun _ _ => rfl⟩

theorem store {α : Type} {offset : UInt32} {store : Flash → Flash × α}
    (apart : ReportsApart flash) (touches : TouchesSector offset store)
    (report : offset ∈ reportSectors) : ReportsApart (store flash).1 := by
  obtain ⟨status, bytes⟩ := touches flash
  constructor
  · exact status.trans apart.status
  · intro address outside
    exact (bytes address (outside offset report)).trans
      (apart.byte address outside)

theorem dumped (apart : ReportsApart flash) (byte : UInt8) :
    ReportsApart (flash.patch crashdumpPartitionOffset byte) := by
  constructor
  · exact apart.status
  · intro address outside
    rw [← apart.byte address outside]
    exact byte_patch_of_not_inRange flash byte (by decide)
      (outside crashdumpPartitionOffset (by decide))

theorem sameRange (apart : ReportsApart flash) {start : UInt32} {len : Nat}
    (spares : ∀ offset ∈ reportSectors, SparesSector start len offset) :
    SameRange start len (oneSlotFlash .a) flash := by
  constructor
  · intro address inside
    exact apart.byte address
      fun offset report => spares offset report address inside
  · intro address size _
    rw [apart.status]

theorem sameRange_front (apart : ReportsApart flash) {start : UInt32}
    {len : Nat} (front : start.toNat + len ≤ 0x10000) :
    SameRange start len (oneSlotFlash .a) flash := by
  have sectors : ∀ offset ∈ reportSectors, 0x10000 ≤ offset.toNat ∧
      offset.toNat + sectorSize ≤ 2 ^ 32 := by
    rw [forall_mem_reportSectors]
    decide
  apply apart.sameRange
  intro offset report
  obtain ⟨behind, fits⟩ := sectors offset report
  exact sparesSector_of_apart (.inl ⟨Nat.le_trans front behind, fits⟩)

theorem sameRange_behind (apart : ReportsApart flash) {start : UInt32}
    {len : Nat} (fits : start.toNat + len ≤ 2 ^ 32)
    (behind : 0x14000 ≤ start.toNat) :
    SameRange start len (oneSlotFlash .a) flash := by
  have sectors : ∀ offset ∈ reportSectors,
      offset.toNat + sectorSize ≤ 0x14000 := by
    rw [forall_mem_reportSectors]
    decide
  apply apart.sameRange
  intro offset report
  exact sparesSector_of_apart
    (.inr ⟨Nat.le_trans (sectors offset report) behind, fits⟩)

theorem slotImage_first (apart : ReportsApart flash) :
    flash.TableReadable ∧
      flash.slotImage .a = some (slotPartition .a) := by
  have table : SameRange partitionTableOffset partitionTableReadLen
      (oneSlotFlash .a) flash := apart.sameRange_front (by decide)
  have entries : flash.partitions = (oneSlotFlash .a).partitions := by
    rw [Flash.partitions, Flash.partitions,
      table.slice (Nat.le_refl _) (by decide)]
  have image := slotImage_oneSlotFlash .a .a
  have header : SameRange (slotPartition .a).offset 24 (oneSlotFlash .a)
      flash := apart.sameRange_behind (by decide) (by decide)
  have bootable := header.bootable.mpr (bootable_of_slotImage image)
  constructor
  · exact (table.readable (by decide) _).mpr rfl
  · rw [Flash.slotImage, entries, find_of_slotImage image,
      Option.filter_some, if_pos]
    exact decide_eq_true bootable

theorem pickPlan_fresh (apart : ReportsApart flash) :
    pickPlan StandIn.ota flash = (.a, .otaFresh, none) := by
  have otadata : SameRange otadataPartitionOffset sectorSize
      (oneSlotFlash .a) flash := apart.sameRange_front (by decide)
  rw [pickPlan_of_sameRange durable_standIn.sector otadata]
  exact pickPlan_oneSlotFlash .a

theorem result_bootImage (apart : ReportsApart flash) :
    ((bootImage sampleSha 0x20000).run flash).result = .ok 0x4FF50000 := by
  have written : SameRange 0x20000 80 sampleFlash (oneSlotFlash .a) :=
    sameRange_withTable sampleFlash (by decide) (by decide) (by decide)
  have kept : SameRange 0x20000 80 sampleFlash flash :=
    written.trans (apart.sameRange_behind (by decide) (by decide))
  rw [run_bootImage_of_sameImage kept apart.status]
  exact bootImage_sampleFlash.2

theorem pick_firstSlot (apart : ReportsApart flash) :
    (pick StandIn.ota flash).flash = flash ∧
      (pick StandIn.ota flash).result =
        .ok (slotPartition .a, .otaFresh) := by
  have plan := apart.pickPlan_fresh
  have kept : (pick StandIn.ota flash).flash = flash := by
    rw [pick_flash, plan]
    rfl
  obtain ⟨readable, image⟩ := apart.slotImage_first
  have chosen : (pick StandIn.ota flash).flash.slotImage
      (chosenSlot StandIn.ota flash) = some (slotPartition .a) := by
    rw [kept, chosenSlot, plan]
    exact image
  have picked := result_pick_of_slotImage StandIn.ota
    (by rw [kept]; exact readable) chosen
  rw [plan] at picked
  exact ⟨kept, picked⟩

/-- Such a flash boots the sample image and stays such a flash. -/
theorem main_firstSlot {bootstat : P4Bootstat} (apart : ReportsApart flash)
    (framed : (reportingStandIn bootstat).Framed) (cause : Cause) :
    (main (reportingStandIn bootstat) cause flash).result =
        .ok 0x4FF50000 ∧
      ReportsApart (main (reportingStandIn bootstat) cause flash).flash := by
  have reported : ReportsApart
      (flashAtPick (reportingStandIn bootstat) cause flash) :=
    (apart.store (framed.history _ _) (by decide)).store
      (framed.bootstat _ _) (by decide)
  have kept : (bootPick (reportingStandIn bootstat) cause flash).flash =
      flashAtPick (reportingStandIn bootstat) cause flash :=
    reported.pick_firstSlot.1
  have picked : (bootPick (reportingStandIn bootstat) cause flash).result =
      .ok (slotPartition .a, .otaFresh) := reported.pick_firstSlot.2
  constructor
  · rw [main_of_pick_ok _ picked, kept]
    exact reported.result_bootImage
  · rw [main_flash, kept]
    exact reported

end ReportsApart

/-- The flash after a first boot of the sample image and a panic. -/
def crashedFlash : Flash :=
  (main (standIn sampleSha) .powerOn (oneSlotFlash .a)).flash.patch
    crashdumpPartitionOffset 0xD0

/-- The flash after the next boot, once the app has erased the dump. -/
def forwardedFlash : Flash :=
  (main (standIn sampleSha) .hpCoreSoftware crashedFlash).flash.patch
    crashdumpPartitionOffset 0xFF

theorem reportsApart_main {flash : Flash} (apart : ReportsApart flash)
    (cause : Cause) :
    (main (standIn sampleSha) cause flash).result = .ok 0x4FF50000 ∧
      ReportsApart (main (standIn sampleSha) cause flash).flash :=
  apart.main_firstSlot (framed_standIn sampleSha) cause

theorem reportsApart_crashedFlash : ReportsApart crashedFlash := by
  rw [crashedFlash]
  exact (reportsApart_main .sample .powerOn).2.dumped 0xD0

/-- A boot of such a flash starts the app. -/
theorem DeviceStep.sampleBoot {flash : Flash} (apart : ReportsApart flash)
    (cause : Cause) :
    DeviceStep (standIn sampleSha) ⟨flash, .reset⟩ (.boot cause flash)
      ⟨(main (standIn sampleSha) cause flash).flash, .app⟩ := by
  have step : DeviceStep (standIn sampleSha) _ _ _ := .boot cause flash
  rw [(reportsApart_main apart cause).1] at step
  exact step

theorem dumpPresent_withTable (sha : Sha256) (flash : Flash)
    {entries : List PartitionEntry} (count : entries.length ≤ 32) :
    (standIn sha).dumpPresent (flash.withTable entries) =
      (standIn sha).dumpPresent flash := by
  apply readsCrashdump_standIn
  apply sameRange_withTable flash count
  · decide
  · decide

theorem dumpPresent_oneSlotFlash :
    (standIn sampleSha).dumpPresent (oneSlotFlash .a) = false := by
  rw [oneSlotFlash, dumpPresent_withTable _ _ (by decide)]
  rfl

theorem dumpPresent_crashedFlash :
    (standIn sampleSha).dumpPresent crashedFlash = true := by
  simp only [Platform.dumpPresent, standIn, crashedFlash, byte_patch_self,
    beq_self_eq_true]

theorem dumpPresent_forwardedFlash :
    (standIn sampleSha).dumpPresent forwardedFlash = false := by
  simp only [Platform.dumpPresent, standIn, forwardedFlash, byte_patch_self]
  rfl

/-! ## Counting -/

/-- Where every run that a reset ends has its dump erased first, no panic is
counted twice, and a boot counts one only after the run it ended.  After the
first reset for which this fails, the next boot counts a panic with every
record it stores, and the run before it did not end in one. -/
theorem panics_counted_once {P : Platform} {first last : Device}
    {actions : List Action}
    (clean : P.dumpPresent first.flash = false)
    (run : Run (StepInTime P) first actions last) :
    actions.countP (Action.recordsPanicReset P) ≤
        actions.countP Action.isPanic ∧
      actions.countP (Action.recordsCrashRecovery P) ≤
        actions.countP Action.isPanic ∧
      (∀ past boot future, actions = past ++ boot :: future →
        boot.recordsPanicReset P = true ∨
          boot.recordsCrashRecovery P = true →
        EndedInPanic past) ∧
      (¬ ErasedInTime P last .reset → ∀ resets device cause flash after,
        (∀ action ∈ resets, action = .reset) →
        Run (DeviceStep P) last resets device →
        DeviceStep P device (.boot cause flash) after →
        ¬ EndedInPanic (actions ++ resets) ∧
          reportsAny P ReportEvent.isPanicReset cause flash =
            reportsAny P ReportEvent.storesBootstat cause flash ∧
          reportsAny P ReportEvent.isCrashRecovery cause flash =
            reportsAny P ReportEvent.storesHistory cause flash) := by
  have bound := (panicsCounted_of_run clean run).counted
  refine ⟨?_, ?_, ?_, ?_⟩
  · apply Nat.le_trans _ bound
    apply List.countP_mono_left
    intro action _ records
    exact Action.findsDump_of_recordsPanicReset records
  · apply Nat.le_trans _ bound
    apply List.countP_mono_left
    intro action _ records
    exact Action.findsDump_of_recordsCrashRecovery records
  · intro past boot future split records
    rw [split] at run
    apply endedInPanic_of_findsDump clean run
    rcases records with panicReset | crashRecovery
    · exact Action.findsDump_of_recordsPanicReset panicReset
    · exact Action.findsDump_of_recordsCrashRecovery crashRecovery
  · intro late resets device cause flash after only toBoot boot
    exact stale_dump_is_counted run late only toBoot boot

/-- The app forwards the dump of a panic before the next reset, so that the
boot after it counts nothing. -/
theorem panics_counted_once_sample :
    let P := standIn sampleSha
    let actions : List Action :=
      [.boot .powerOn (oneSlotFlash .a), .panic,
        .boot .hpCoreSoftware crashedFlash, .erase, .reset,
        .boot .powerOn forwardedFlash]
    actions.map (Action.recordsPanicReset P) =
        [false, false, true, false, false, false] ∧
      actions.countP (Action.recordsPanicReset P) ≤
        actions.countP Action.isPanic ∧
      actions.countP (Action.recordsCrashRecovery P) ≤
        actions.countP Action.isPanic ∧
      ∀ past boot future, actions = past ++ boot :: future →
        boot.recordsPanicReset P = true ∨
          boot.recordsCrashRecovery P = true →
        EndedInPanic past := by
  intro P actions
  have absent := dumpPresent_forwardedFlash
  have inTime (device : Device) {action : Action}
      (other : action ≠ .reset) : ErasedInTime P device action :=
    fun reset => (other reset).elim
  have crashed : DeviceStep P _ _ _ :=
    .sampleBoot reportsApart_crashedFlash .hpCoreSoftware
  have run : Run (StepInTime P) ⟨oneSlotFlash .a, .reset⟩ actions
      ⟨_, _⟩ :=
    .cons ⟨.sampleBoot .sample .powerOn, inTime _ nofun⟩
      (.cons ⟨.panic dumpPresent_crashedFlash, inTime _ nofun⟩
        (.cons ⟨crashed, inTime _ nofun⟩
          (.cons ⟨.erase absent, inTime _ nofun⟩
            (.cons ⟨.reset rfl, fun _ _ => absent⟩
              (.cons ⟨.boot .powerOn forwardedFlash, inTime _ nofun⟩
                (.nil _))))))
  have clean : P.dumpPresent (Device.mk (oneSlotFlash .a) .reset).flash =
      false := dumpPresent_oneSlotFlash
  obtain ⟨panicReset, crashRecovery, ordered, _⟩ :=
    panics_counted_once clean run
  have first := reportsAny_standIn sampleSha .powerOn (oneSlotFlash .a)
  have second := reportsAny_standIn sampleSha .hpCoreSoftware crashedFlash
  have third := reportsAny_standIn sampleSha .powerOn forwardedFlash
  rw [dumpPresent_oneSlotFlash] at first
  rw [dumpPresent_crashedFlash] at second
  rw [absent] at third
  refine ⟨?_, panicReset, crashRecovery, ordered⟩
  simp [P, actions, first.1, second.1, third.1, Action.recordsPanicReset]

/-- A power cycle before the app has forwarded the dump counts the panic
again. -/
theorem panic_is_counted_twice :
    let P := standIn sampleSha
    let recovered := (main P .hpCoreSoftware crashedFlash).flash
    let actions : List Action :=
      [.boot .powerOn (oneSlotFlash .a), .panic,
        .boot .hpCoreSoftware crashedFlash, .reset,
        .boot .powerOn recovered]
    P.ReadsCrashdump ∧ P.Framed ∧
      P.dumpPresent (oneSlotFlash .a) = false ∧
      (∃ last,
        Run (DeviceStep P) ⟨oneSlotFlash .a, .reset⟩ actions last) ∧
      ¬ actions.countP (Action.recordsPanicReset P) ≤
        actions.countP Action.isPanic ∧
      ¬ actions.countP (Action.recordsCrashRecovery P) ≤
        actions.countP Action.isPanic := by
  intro P recovered actions
  have reads : P.ReadsCrashdump := readsCrashdump_standIn sampleSha
  have framed : P.Framed := framed_standIn sampleSha
  have stale : P.dumpPresent recovered = true :=
    (dumpPresent_main reads framed _ _).trans dumpPresent_crashedFlash
  have powerCycle : DeviceStep P
      ⟨recovered, modeAfter (main P .hpCoreSoftware crashedFlash).result⟩
      .reset ⟨recovered, .reset⟩ := .reset rfl
  have first := reportsAny_standIn sampleSha .powerOn (oneSlotFlash .a)
  have second := reportsAny_standIn sampleSha .hpCoreSoftware crashedFlash
  have third := reportsAny_standIn sampleSha .powerOn recovered
  rw [dumpPresent_oneSlotFlash] at first
  rw [dumpPresent_crashedFlash] at second
  rw [stale] at third
  refine ⟨reads, framed, dumpPresent_oneSlotFlash, ?_, ?_, ?_⟩
  · refine ⟨⟨(main P .powerOn recovered).flash,
      modeAfter (main P .powerOn recovered).result⟩, ?_⟩
    have firstBoot : DeviceStep P _ _ _ := .sampleBoot .sample .powerOn
    apply Run.cons firstBoot
    apply Run.cons (.panic dumpPresent_crashedFlash)
    apply Run.cons (.boot .hpCoreSoftware crashedFlash)
    apply Run.cons powerCycle
    exact .cons (.boot .powerOn recovered) (.nil _)
  · simp [P, actions, List.countP_cons, first.1, second.1, third.1,
      Action.recordsPanicReset, Action.isPanic]
  · simp [P, actions, List.countP_cons, first.2, second.2, third.2,
      Action.recordsCrashRecovery, Action.isPanic]

end MiniBootloader
