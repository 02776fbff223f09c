import MiniBootloader.PanicCount

/-!
# The uptime a boot carries forward

The bootloader has no clock.  A boot takes the uptime of the latest bootstat
record for that of the run that just ended, whether or not the app stored one
during that run.
-/

namespace MiniBootloader

open Bootstat Words

/-- The uptime in the record the next boot starts from. -/
def Platform.latestUptime (P : Platform) (flash : Flash) : UInt32 :=
  P.bootstat.lastUptimeSeconds
    (P.bootstat.loadLatestOrFresh bootstatPartitionOffset flash)

/-- Appending succeeds, loading returns the record appended last and depends
on its sector only, and a boot stores the uptime it is given. -/
structure P4Bootstat.KeepsUptime (crate : P4Bootstat) : Prop where
  sector : ∀ offset flash flash',
    SameRange offset sectorSize flash flash' →
    crate.loadLatestOrFresh offset flash' =
      crate.loadLatestOrFresh offset flash
  succeeds : ∀ offset record flash,
    (crate.appendRecord offset record flash).2 = .ok ()
  appended : ∀ offset record flash,
    crate.loadLatestOrFresh offset (crate.appendRecord offset record flash).1 =
      record
  recorded : ∀ record reason raw uptime,
    crate.lastUptimeSeconds (crate.recordBoot record reason raw uptime) =
      uptime

/-- The bootstat records of a boot bound the run of `duration` seconds that
it ends. -/
def UptimeBoundsRun (P : Platform) (cause : Cause) (flash : Flash)
    (duration : Nat) : Prop :=
  ∀ offset reason raw record stored,
    .report (.bootstat offset reason raw record stored) ∈
      (main P cause flash).events →
    (P.bootstat.lastUptimeSeconds record).toNat ≤ duration

/-! ## The record of one boot -/

/-- The record appended carries the uptime of the record before it, and is
the latest one afterwards. -/
theorem Bootstat.recordAndPrint_carries {crate : P4Bootstat}
    (keeps : crate.KeepsUptime) (rawOf : Cause → UInt8)
    (partitionOffset : UInt32) (cause : Cause) (crashdumpWasPresent : Bool)
    (flash : Flash) :
    ∃ reason raw record,
      (recordAndPrint crate rawOf partitionOffset cause crashdumpWasPresent
          flash).2 = .bootstat partitionOffset reason raw record true ∧
        crate.lastUptimeSeconds record =
          crate.lastUptimeSeconds
            (crate.loadLatestOrFresh partitionOffset flash) ∧
        crate.loadLatestOrFresh partitionOffset
          (recordAndPrint crate rawOf partitionOffset cause
            crashdumpWasPresent flash).1 = record := by
  let prev := crate.loadLatestOrFresh partitionOffset flash
  let reason :=
    if crashdumpWasPresent then .panicReset else mapCauseToReason cause
  let next := crate.recordBoot prev reason (rawOf cause)
    (crate.lastUptimeSeconds prev)
  refine ⟨reason, rawOf cause, next, ?_, keeps.recorded _ _ _ _,
    keeps.appended _ _ _⟩
  simp only [recordAndPrint, keeps.succeeds]
  rfl

section Boot

variable {P : Platform} (keeps : P.bootstat.KeepsUptime)

include keeps

theorem latestUptime_of_sameRange {flash flash' : Flash}
    (same : SameRange bootstatPartitionOffset sectorSize flash flash') :
    P.latestUptime flash' = P.latestUptime flash := by
  rw [Platform.latestUptime, Platform.latestUptime, keeps.sector _ _ _ same]

variable (framed : P.Framed) (cause : Cause) (flash : Flash)

include framed

/-- The record of a boot has the uptime the boot found, which stays the
latest. -/
theorem recordBoot_carries :
    ∃ entry historyStored reason raw record,
      (recordBoot P cause flash).2 =
          [.bootHistory BootHistory.bootlogPartitionOffset entry
            historyStored,
          .bootstat bootstatPartitionOffset reason raw record true] ∧
        P.bootstat.lastUptimeSeconds record = P.latestUptime flash ∧
        P.latestUptime (flashAtPick P cause flash) =
          P.latestUptime flash := by
  let entry : BootHistory.Entry :=
    ⟨0, 0, if P.dumpPresent flash then .crashRecovery
      else BootHistory.mapCauseToReason cause⟩
  let logged := P.history.storeToFlash BootHistory.bootlogPartitionOffset
    (P.history.append (P.history.loadFromFlashOrEmpty
      BootHistory.bootlogPartitionOffset flash) entry) flash
  have kept : P.latestUptime logged.1 = P.latestUptime flash := by
    apply latestUptime_of_sameRange keeps
    apply (framed.history _ _).sameRange
    exact sparesSector_of_apart (by decide)
  obtain ⟨reason, raw, record, report, carried, latest⟩ :=
    recordAndPrint_carries keeps P.rawOf bootstatPartitionOffset cause
      (P.dumpPresent flash) logged.1
  have uptime : P.bootstat.lastUptimeSeconds record =
      P.latestUptime flash := carried.trans kept
  refine ⟨entry, logged.2.isOk, reason, raw, record, ?_, uptime, ?_⟩
  · rw [← report]
    rfl
  · exact (congrArg P.bootstat.lastUptimeSeconds latest).trans uptime

/-- A boot keeps the latest uptime. -/
theorem latestUptime_main :
    P.latestUptime (main P cause flash).flash = P.latestUptime flash := by
  obtain ⟨_, _, _, _, _, _, _, kept⟩ :=
    recordBoot_carries keeps framed cause flash
  rw [main_flash, ← kept]
  apply latestUptime_of_sameRange keeps
  exact sameRange_pick framed.ota (sparesSector_of_apart (by decide)) _

theorem uptimeBoundsRun_iff {duration : Nat} :
    UptimeBoundsRun P cause flash duration ↔
      (P.latestUptime flash).toNat ≤ duration := by
  obtain ⟨entry, historyStored, reason, raw, record, reports, carried, _⟩ :=
    recordBoot_carries keeps framed cause flash
  constructor
  · intro bounds
    rw [← carried]
    apply bounds bootstatPartitionOffset reason raw record true
    rw [report_mem_main_iff, reports]
    simp
  · intro bound offset reason' raw' record' stored member
    rw [report_mem_main_iff, reports] at member
    simp only [List.mem_cons, reduceCtorEq, List.not_mem_nil, or_false,
      false_or, ReportEvent.bootstat.injEq] at member
    obtain ⟨_, _, _, rfl, _⟩ := member
    rw [carried]
    exact bound

end Boot

/-! ## The device -/

/-- A device and the seconds since its last boot.  A reset stops the
count. -/
structure Life where
  flash : Flash
  mode : Mode
  elapsed : Nat

inductive LifeAction where
  /-- A boot through `main`, on the flash it finds, after a run of `duration`
  seconds. -/
  | boot (cause : Cause) (flash : Flash) (duration : Nat)
  | pass (seconds : Nat)
  /-- The app stores its uptime. -/
  | tick (uptime : UInt32)
  | reset

/-- The steps of a device.  Between boots anything in flash may change except
the latest uptime, which only a tick of the app replaces. -/
inductive LifeStep (P : Platform) : Life → LifeAction → Life → Prop where
  | boot (cause : Cause) (flash : Flash) (duration : Nat) :
      LifeStep P ⟨flash, .reset, duration⟩ (.boot cause flash duration)
        ⟨(main P cause flash).flash,
          modeAfter (main P cause flash).result, 0⟩
  | pass {flash flash' : Flash} {mode : Mode} {elapsed : Nat}
      (seconds : Nat) :
      mode ≠ .reset →
      P.latestUptime flash' = P.latestUptime flash →
      LifeStep P ⟨flash, mode, elapsed⟩ (.pass seconds)
        ⟨flash', mode, elapsed + seconds⟩
  | tick {flash flash' : Flash} {elapsed : Nat} {uptime : UInt32} :
      uptime.toNat ≤ elapsed →
      P.latestUptime flash' = uptime →
      LifeStep P ⟨flash, .app, elapsed⟩ (.tick uptime)
        ⟨flash', .app, elapsed⟩
  | reset {flash flash' : Flash} {mode : Mode} {elapsed : Nat} :
      mode ≠ .reset →
      P.latestUptime flash' = P.latestUptime flash →
      LifeStep P ⟨flash, mode, elapsed⟩ .reset ⟨flash', .reset, elapsed⟩

namespace LifeAction

def storedAfter (stored : UInt32) : LifeAction → UInt32
  | .tick uptime => uptime
  | .boot _ _ _ | .pass _ | .reset => stored

def tickedAfter (ticked : Bool) : LifeAction → Bool
  | .boot _ _ _ => false
  | .tick _ => true
  | .pass _ | .reset => ticked

end LifeAction

/-- The uptime of the last tick, or `initial` if there was none. -/
def lastStored (initial : UInt32) (past : List LifeAction) : UInt32 :=
  past.foldl LifeAction.storedAfter initial

/-- The app has ticked since the last boot. -/
def tickedSinceBoot (past : List LifeAction) : Bool :=
  past.foldl LifeAction.tickedAfter false

section Life

variable {P : Platform} (framed : P.Framed) (keeps : P.bootstat.KeepsUptime)

include framed keeps

theorem LifeStep.latestUptime {before after : Life} {action : LifeAction}
    (taken : LifeStep P before action after) :
    P.latestUptime after.flash =
      action.storedAfter (P.latestUptime before.flash) := by
  cases taken with
  | boot cause flash duration =>
      exact latestUptime_main keeps framed cause flash
  | pass seconds running kept => exact kept
  | tick within latest => exact latest
  | reset running kept => exact kept

/-- An uptime stored since the last boot is at most the time since then. -/
theorem LifeStep.bounded {before after : Life} {action : LifeAction}
    {ticked : Bool}
    (bounded : ticked = true →
      (P.latestUptime before.flash).toNat ≤ before.elapsed)
    (taken : LifeStep P before action after) :
    action.tickedAfter ticked = true →
      (P.latestUptime after.flash).toNat ≤ after.elapsed := by
  have latest := taken.latestUptime framed keeps
  rw [latest]
  intro tickedAfter
  cases taken with
  | boot cause flash duration => cases tickedAfter
  | pass seconds running kept =>
      exact Nat.le_add_right_of_le (bounded tickedAfter)
  | tick within latest => exact within
  | reset running kept => exact bounded tickedAfter

variable {first last : Life} {actions : List LifeAction}
  (run : Run (LifeStep P) first actions last)

include run

theorem latestUptime_of_run :
    P.latestUptime last.flash =
      lastStored (P.latestUptime first.flash) actions := by
  apply run.simulates_foldl
    (motive := fun life stored => P.latestUptime life.flash = stored)
  · rfl
  · intro before action after stored latest taken
    rw [taken.latestUptime framed keeps, latest]

theorem bounded_of_run :
    tickedSinceBoot actions = true →
      (P.latestUptime last.flash).toNat ≤ last.elapsed := by
  apply run.simulates_foldl
    (motive := fun life ticked => ticked = true →
      (P.latestUptime life.flash).toNat ≤ life.elapsed)
  · intro ticked
    cases ticked
  · intro before action after ticked bounded taken
    exact taken.bounded framed keeps bounded

end Life

/-! ## A sample -/

namespace StandIn

/-- A marker byte in front of the uptime. -/
def uptimeBytes (uptime : UInt32) : Vector UInt8 5 :=
  ⟨(0xB5 :: u32ToLeBytes uptime).toArray, by simp⟩

/-- A record is its uptime; flash without the marker holds a fresh one. -/
def uptimeBootstat : P4Bootstat :=
  { Record := UInt32
    Error := Unit
    lastUptimeSeconds := fun uptime => uptime
    loadLatestOrFresh := fun offset flash =>
      let bytes := flash.slice offset 5
      if bytes[0] = 0xB5 then
        u32FromLeBytes bytes[1] bytes[2] bytes[3] bytes[4]
      else
        0
    recordBoot := fun _ _ _ uptime => uptime
    appendRecord := fun offset uptime flash =>
      (flash.program offset (uptimeBytes uptime).toList, .ok ()) }

end StandIn

def uptimeStandIn : Platform :=
  { standIn sampleSha with bootstat := StandIn.uptimeBootstat }

theorem framed_uptimeStandIn : uptimeStandIn.Framed := by
  have framed := framed_standIn sampleSha
  constructor
  · constructor
    · exact framed.history
    · intro offset record
      exact touchesSector_program offset _ (Nat.le_of_ble_eq_true rfl)
  · exact framed.ota

theorem keepsUptime_uptimeStandIn :
    uptimeStandIn.bootstat.KeepsUptime := by
  constructor
  · intro offset flash flash' same
    have bytes : flash'.slice offset 5 = flash.slice offset 5 :=
      same.slice (by decide) (by decide)
    simp only [uptimeStandIn, StandIn.uptimeBootstat, bytes]
  · intro offset record flash
    rfl
  · intro offset uptime flash
    have bytes := slice_program flash offset (StandIn.uptimeBytes uptime)
      (by decide)
    have decoded := u32FromLeBytes_toLeBytes uptime
    simp only [uptimeStandIn, StandIn.uptimeBootstat, bytes]
    exact decoded
  · intro record reason raw uptime
    rfl

/-- The sample after its first boot. -/
def bootedFlash : Flash :=
  (main uptimeStandIn .powerOn (oneSlotFlash .a)).flash

/-- The app has run for an hour and stored its uptime. -/
def tickedFlash : Flash :=
  (uptimeStandIn.bootstat.appendRecord bootstatPartitionOffset
    (3600 : UInt32) bootedFlash).1

/-- The sample after its second boot. -/
def rebootedFlash : Flash :=
  (main uptimeStandIn .hpCoreSoftware tickedFlash).flash

theorem boots_oneSlotFlash (cause : Cause) :
    (main uptimeStandIn cause (oneSlotFlash .a)).result =
        .ok 0x4FF50000 ∧
      ReportsApart (main uptimeStandIn cause (oneSlotFlash .a)).flash :=
  ReportsApart.sample.main_firstSlot framed_uptimeStandIn cause

theorem boots_tickedFlash (cause : Cause) :
    (main uptimeStandIn cause tickedFlash).result = .ok 0x4FF50000 ∧
      ReportsApart (main uptimeStandIn cause tickedFlash).flash := by
  have booted : ReportsApart bootedFlash := by
    rw [bootedFlash]
    exact (boots_oneSlotFlash .powerOn).2
  have ticked : ReportsApart tickedFlash :=
    booted.store (framed_uptimeStandIn.bootstat _ _) (by decide)
  exact ticked.main_firstSlot framed_uptimeStandIn cause

theorem latestUptime_oneSlotFlash :
    uptimeStandIn.latestUptime (oneSlotFlash .a) = 0 := by
  have written : SameRange bootstatPartitionOffset sectorSize sampleFlash
      (oneSlotFlash .a) :=
    sameRange_withTable sampleFlash (by decide) (by decide) (by decide)
  rw [latestUptime_of_sameRange keepsUptime_uptimeStandIn written]
  rfl

theorem latestUptime_tickedFlash :
    uptimeStandIn.latestUptime tickedFlash = 3600 :=
  congrArg uptimeStandIn.bootstat.lastUptimeSeconds
    (keepsUptime_uptimeStandIn.appended _ _ _)

theorem latestUptime_rebootedFlash :
    uptimeStandIn.latestUptime rebootedFlash = 3600 := by
  have kept := latestUptime_main keepsUptime_uptimeStandIn
    framed_uptimeStandIn .hpCoreSoftware tickedFlash
  rw [rebootedFlash, kept]
  exact latestUptime_tickedFlash

/-- The app stores its uptime in the first run, and the second run is reset
after five seconds. -/
def shortRun : List LifeAction :=
  [.boot .powerOn (oneSlotFlash .a) 0, .pass 3600, .tick 3600, .reset,
    .boot .hpCoreSoftware tickedFlash 3600, .pass 5, .reset,
    .boot .hpWatchdogSystem rebootedFlash 5]

theorem run_shortRun :
    ∃ last, Run (LifeStep uptimeStandIn) ⟨oneSlotFlash .a, .reset, 0⟩
      shortRun last := by
  have firstBoot : LifeStep uptimeStandIn ⟨oneSlotFlash .a, .reset, 0⟩
      (.boot .powerOn (oneSlotFlash .a) 0) ⟨bootedFlash, .app, 0⟩ := by
    have step : LifeStep uptimeStandIn _ _ _ :=
      .boot .powerOn (oneSlotFlash .a) 0
    rw [(boots_oneSlotFlash .powerOn).1] at step
    rw [bootedFlash]
    exact step
  have hour : LifeStep uptimeStandIn ⟨bootedFlash, .app, 0⟩ (.pass 3600)
      ⟨bootedFlash, .app, 3600⟩ := .pass 3600 nofun rfl
  have ticked : LifeStep uptimeStandIn ⟨bootedFlash, .app, 3600⟩
      (.tick 3600) ⟨tickedFlash, .app, 3600⟩ :=
    .tick (Nat.le_refl _) latestUptime_tickedFlash
  have secondBoot : LifeStep uptimeStandIn ⟨tickedFlash, .reset, 3600⟩
      (.boot .hpCoreSoftware tickedFlash 3600)
      ⟨rebootedFlash, .app, 0⟩ := by
    have step : LifeStep uptimeStandIn _ _ _ :=
      .boot .hpCoreSoftware tickedFlash 3600
    rw [(boots_tickedFlash .hpCoreSoftware).1] at step
    rw [rebootedFlash]
    exact step
  have seconds : LifeStep uptimeStandIn ⟨rebootedFlash, .app, 0⟩ (.pass 5)
      ⟨rebootedFlash, .app, 5⟩ := .pass 5 nofun rfl
  have reset (flash : Flash) (elapsed : Nat) :
      LifeStep uptimeStandIn ⟨flash, .app, elapsed⟩ .reset
        ⟨flash, .reset, elapsed⟩ := .reset nofun rfl
  exact ⟨_, .cons firstBoot (.cons hour (.cons ticked
    (.cons (reset tickedFlash 3600) (.cons secondBoot (.cons seconds
      (.cons (reset rebootedFlash 5)
        (.cons (.boot .hpWatchdogSystem rebootedFlash 5)
          (.nil _))))))))⟩

/-! ## The bound -/

/-- In every run of a device, the record of a boot bounds the run it ends
exactly when the app stored its uptime in that run, or the run lasted at
least as long as the uptime stored last before it. -/
theorem uptime_bounds_run_iff {P : Platform} (framed : P.Framed)
    (keeps : P.bootstat.KeepsUptime) {first last : Life}
    {actions : List LifeAction}
    (run : Run (LifeStep P) first actions last) :
    ∀ past cause flash duration future,
      actions = past ++ LifeAction.boot cause flash duration :: future →
      (UptimeBoundsRun P cause flash duration ↔
        tickedSinceBoot past = true ∨
          (lastStored (P.latestUptime first.flash) past).toNat ≤
            duration) := by
  rintro past cause flash duration future rfl
  obtain ⟨before, after, toBefore, taken, _⟩ := run.split
  have latest := latestUptime_of_run framed keeps toBefore
  have bounded := bounded_of_run framed keeps toBefore
  cases taken
  rw [uptimeBoundsRun_iff keeps framed, ← latest]
  constructor
  · exact .inr
  · rintro (ticked | bound)
    · exact bounded ticked
    · exact bound

theorem uptime_bounds_run_sample :
    UptimeBoundsRun uptimeStandIn .hpCoreSoftware tickedFlash 3600 := by
  obtain ⟨last, run⟩ := run_shortRun
  have exact_bound := uptime_bounds_run_iff framed_uptimeStandIn
    keepsUptime_uptimeStandIn run
    [.boot .powerOn (oneSlotFlash .a) 0, .pass 3600, .tick 3600, .reset]
    .hpCoreSoftware tickedFlash 3600 _ rfl
  exact exact_bound.mpr (.inl rfl)

/-- A run that is reset before its first tick is recorded with the uptime of
the run before it. -/
theorem uptime_exceeds_run :
    uptimeStandIn.Framed ∧ uptimeStandIn.bootstat.KeepsUptime ∧
      uptimeStandIn.latestUptime (oneSlotFlash .a) = 0 ∧
      (∃ last, Run (LifeStep uptimeStandIn) ⟨oneSlotFlash .a, .reset, 0⟩
        [.boot .powerOn (oneSlotFlash .a) 0, .pass 3600, .tick 3600, .reset,
          .boot .hpCoreSoftware tickedFlash 3600, .pass 5, .reset,
          .boot .hpWatchdogSystem rebootedFlash 5] last) ∧
      (main uptimeStandIn .powerOn (oneSlotFlash .a)).result =
        .ok 0x4FF50000 ∧
      (main uptimeStandIn .hpCoreSoftware tickedFlash).result =
        .ok 0x4FF50000 ∧
      ¬ UptimeBoundsRun uptimeStandIn .hpWatchdogSystem rebootedFlash 5 := by
  refine ⟨framed_uptimeStandIn, keepsUptime_uptimeStandIn,
    latestUptime_oneSlotFlash, run_shortRun, (boots_oneSlotFlash _).1,
    (boots_tickedFlash _).1, ?_⟩
  rw [uptimeBoundsRun_iff keepsUptime_uptimeStandIn framed_uptimeStandIn,
    latestUptime_rebootedFlash]
  decide

end MiniBootloader
