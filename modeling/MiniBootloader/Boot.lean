import MiniBootloader.Reports
import MiniBootloader.SlotSelect
import MiniBootloader.Verify

/-!
# The boot sequence

`main` from the crash-dump check to the jump, or to the heartbeat loop with
the error that led there.  Console output, watchdogs and the PSRAM bring-up
do not change which image is booted and are left out.
-/

namespace MiniBootloader

/-- The crates and registers the boot sequence uses. -/
structure Platform where
  rawOf : Cause → UInt8
  /-- `p4_crashdump::is_present`. -/
  crashdumpIsPresent : UInt32 → Flash → Bool
  history : P4BootHistory
  bootstat : P4Bootstat
  ota : P4Ota
  sha : Sha256

/-- Why the boot ends in the heartbeat loop. -/
inductive Halt where
  | pick (error : SlotSelectError)
  | header (error : AppLoadError)
  | verify (error : VerifyError)
  | load (error : AppLoadError)
  deriving DecidableEq

/-- The phase 5 gate: images that declare a hash are verified. -/
def verifyGate (sha : Sha256) (off : UInt32) (header : ImageHeader) :
    FlashM Halt Unit :=
  if header.hashAppended then do
    let _ ← (verifyAppSha256 sha off header).mapError Halt.verify
    pure ()
  else
    pure ()

/-- `main` from `read_header` on; the result is the address jumped to. -/
def bootImage (sha : Sha256) (off : UInt32) : FlashM Halt UInt32 := do
  let header ← (readHeader off).mapError Halt.header
  verifyGate sha off header
  (loadSegments off header).mapError Halt.load
  pure header.entryAddr

def crashdumpPartitionOffset : UInt32 := 0x10000

inductive BootEvent (P : Platform) where
  | report (event : ReportEvent P.bootstat.Record)
  | pick (event : PickEvent P.ota.OtaData)
  | image (event : Event)

section Main

variable (P : Platform)

/-- The two records every boot writes before it picks a slot. -/
def recordBoot (resetCause : Cause) (flash : Flash) :
    Flash × List (ReportEvent P.bootstat.Record) :=
  let crashWasPresent := P.crashdumpIsPresent crashdumpPartitionOffset flash
  let bootReason :=
    if crashWasPresent then .crashRecovery
    else BootHistory.mapCauseToReason resetCause
  let (flash₁, historyEvent) := BootHistory.recordAndPrint P.history
    BootHistory.bootlogPartitionOffset bootReason flash
  let (flash₂, bootstatEvent) := Bootstat.recordAndPrint P.bootstat P.rawOf
    Bootstat.bootstatPartitionOffset resetCause crashWasPresent flash₁
  (flash₂, [historyEvent, bootstatEvent])

def main (resetCause : Cause) (flash : Flash) :
    FlashRun (BootEvent P) Halt UInt32 :=
  let (flash', reports) := recordBoot P resetCause flash
  let picked := pick P.ota flash'
  let before := reports.map .report ++ picked.events.map .pick
  match picked.result with
  | .error error =>
      { flash := picked.flash
        events := before
        result := .error (.pick error) }
  | .ok (chosen, _) =>
      let image := (bootImage P.sha chosen.offset).run picked.flash
      { flash := picked.flash
        events := before ++ image.trace.map .image
        result := image.result }

/-- The flash `pick` starts from. -/
def flashAtPick (resetCause : Cause) (flash : Flash) : Flash :=
  (recordBoot P resetCause flash).1

/-- What `pick` does in a boot. -/
def bootPick (resetCause : Cause) (flash : Flash) :
    FlashRun (PickEvent P.ota.OtaData) SlotSelectError
      (PartitionEntry × SelectionOutcome) :=
  pick P.ota (flashAtPick P resetCause flash)

/-- After `pick` the flash is only read. -/
theorem main_flash (resetCause : Cause) (flash : Flash) :
    (main P resetCause flash).flash =
      (bootPick P resetCause flash).flash := by
  simp only [main, bootPick, flashAtPick]
  split <;> rfl

theorem main_of_pick_error {resetCause : Cause} {flash : Flash}
    {error : SlotSelectError}
    (failed : (bootPick P resetCause flash).result = .error error) :
    main P resetCause flash =
      { flash := (bootPick P resetCause flash).flash
        events := (recordBoot P resetCause flash).2.map .report ++
          (bootPick P resetCause flash).events.map .pick
        result := .error (.pick error) } := by
  simp only [bootPick, flashAtPick] at failed ⊢
  simp only [main, failed]

theorem main_of_pick_ok {resetCause : Cause} {flash : Flash}
    {chosen : PartitionEntry} {outcome : SelectionOutcome}
    (picked : (bootPick P resetCause flash).result = .ok (chosen, outcome)) :
    main P resetCause flash =
      let image := (bootImage P.sha chosen.offset).run
        (bootPick P resetCause flash).flash
      { flash := (bootPick P resetCause flash).flash
        events := (recordBoot P resetCause flash).2.map .report ++
          (bootPick P resetCause flash).events.map .pick ++
          image.trace.map .image
        result := image.result } := by
  simp only [bootPick, flashAtPick] at picked ⊢
  simp only [main, picked]

/-- The records of a boot are written before `pick`. -/
theorem report_mem_main_iff {resetCause : Cause} {flash : Flash}
    {report : ReportEvent P.bootstat.Record} :
    BootEvent.report report ∈ (main P resetCause flash).events ↔
      report ∈ (recordBoot P resetCause flash).2 := by
  cases picked : (bootPick P resetCause flash).result with
  | error error => simp [main_of_pick_error P picked]
  | ok choice =>
      obtain ⟨chosen, outcome⟩ := choice
      simp [main_of_pick_ok P picked]

/-- What a boot does to an image it does to the picked one. -/
theorem image_mem_main_iff {resetCause : Cause} {flash : Flash}
    {event : Event} :
    BootEvent.image event ∈ (main P resetCause flash).events ↔
      ∃ chosen outcome,
        (bootPick P resetCause flash).result = .ok (chosen, outcome) ∧
        event ∈ ((bootImage P.sha chosen.offset).run
          (bootPick P resetCause flash).flash).trace := by
  cases picked : (bootPick P resetCause flash).result with
  | error error => simp [main_of_pick_error P picked]
  | ok choice =>
      obtain ⟨chosen, outcome⟩ := choice
      simp [main_of_pick_ok P picked]

end Main

end MiniBootloader
