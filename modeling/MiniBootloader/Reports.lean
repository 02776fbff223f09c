import MiniBootloader.Flash

/-!
# Boot-history and bootstat records

Both reporters read their partition, add one record for this boot and write
it back.  The record formats live in other crates and are the fields of
`P4BootHistory` and `P4Bootstat`; the mapping of reset causes to the two
taxonomies is the code's own.
-/

namespace MiniBootloader

/-- The HP-system reset causes. -/
inductive Cause where
  | powerOn
  | usbUartChip
  | usbJtagChip
  | hpJtag
  | digitalSystemSoftware
  | hpCoreSoftware
  | pmuHpSystemPowerDown
  | hpCoreLockup
  | hpWatchdogSystem
  | lpWatchdogSystem
  | hpWatchdogCore
  | lpWatchdogCore
  | lpWatchdogChip
  | superWatchdog
  | brownOut
  | glitch
  | efuseCrc
  | unknown (raw : UInt8)
  deriving DecidableEq, Repr

namespace BootHistory

/-- The tags of `p4_boot_history::reason`. -/
inductive Reason where
  | unknown
  | powerOn
  | externalReset
  | softwareReset
  | watchdogReset
  | brownoutReset
  | deepSleepWake
  | crashRecovery
  | intrusion
  deriving DecidableEq, Repr

def mapCauseToReason : Cause → Reason
  | .powerOn => .powerOn
  | .usbUartChip | .usbJtagChip | .hpJtag => .externalReset
  | .digitalSystemSoftware | .hpCoreSoftware | .pmuHpSystemPowerDown
  | .hpCoreLockup => .softwareReset
  | .hpWatchdogSystem | .lpWatchdogSystem | .hpWatchdogCore
  | .lpWatchdogCore | .lpWatchdogChip | .superWatchdog => .watchdogReset
  | .brownOut => .brownoutReset
  | .glitch | .efuseCrc => .intrusion
  | .unknown _ => .unknown

/-- The arguments of `Entry::new`. -/
structure Entry where
  timestampUs : UInt64
  previousUptimeUs : UInt64
  reason : Reason
  deriving DecidableEq, Repr

def bootlogPartitionOffset : UInt32 := 0x12000

end BootHistory

/-- What the code uses of the `p4_boot_history` crate. -/
structure P4BootHistory where
  History : Type
  Error : Type
  loadFromFlashOrEmpty : UInt32 → Flash → History
  append : History → BootHistory.Entry → History
  storeToFlash : UInt32 → History → Flash → Flash × Except Error Unit

namespace Bootstat

inductive ResetReason where
  | powerOn
  | externalReset
  | jtagReset
  | softwareReset
  | deepSleepWake
  | watchdogTimer
  | brownout
  | intrusion
  | panicReset
  | unknown
  deriving DecidableEq, Repr

def mapCauseToReason : Cause → ResetReason
  | .powerOn => .powerOn
  | .usbUartChip | .usbJtagChip => .externalReset
  | .hpJtag => .jtagReset
  | .digitalSystemSoftware | .hpCoreSoftware => .softwareReset
  | .pmuHpSystemPowerDown => .deepSleepWake
  | .hpWatchdogSystem | .lpWatchdogSystem | .hpWatchdogCore
  | .lpWatchdogCore | .lpWatchdogChip | .superWatchdog
  | .hpCoreLockup => .watchdogTimer
  | .brownOut => .brownout
  | .glitch | .efuseCrc => .intrusion
  | .unknown _ => .unknown

def bootstatPartitionOffset : UInt32 := 0x13000

end Bootstat

/-- What the code uses of the `p4_bootstat` crate. -/
structure P4Bootstat where
  Record : Type
  Error : Type
  lastUptimeSeconds : Record → UInt32
  loadLatestOrFresh : UInt32 → Flash → Record
  recordBoot : Record → Bootstat.ResetReason → UInt8 → UInt32 → Record
  appendRecord : UInt32 → Record → Flash → Flash × Except Error Unit

/-- A record of this boot, as handed to the crate that writes it. -/
inductive ReportEvent (R : Type) where
  | bootHistory (offset : UInt32) (entry : BootHistory.Entry)
      (stored : Bool)
  | bootstat (offset : UInt32) (reason : Bootstat.ResetReason) (raw : UInt8)
      (record : R) (stored : Bool)

def BootHistory.recordAndPrint {R : Type} (crate : P4BootHistory)
    (partitionOffset : UInt32) (bootReason : BootHistory.Reason)
    (flash : Flash) : Flash × ReportEvent R :=
  let history := crate.loadFromFlashOrEmpty partitionOffset flash
  let entry : BootHistory.Entry := ⟨0, 0, bootReason⟩
  let (flash', stored) :=
    crate.storeToFlash partitionOffset (crate.append history entry) flash
  (flash', .bootHistory partitionOffset entry stored.isOk)

def Bootstat.recordAndPrint (crate : P4Bootstat) (rawOf : Cause → UInt8)
    (partitionOffset : UInt32) (cause : Cause)
    (crashdumpWasPresent : Bool) (flash : Flash) :
    Flash × ReportEvent crate.Record :=
  let prev := crate.loadLatestOrFresh partitionOffset flash
  let reason :=
    if crashdumpWasPresent then .panicReset else mapCauseToReason cause
  let raw := rawOf cause
  let next := crate.recordBoot prev reason raw (crate.lastUptimeSeconds prev)
  let (flash', stored) := crate.appendRecord partitionOffset next flash
  (flash', .bootstat partitionOffset reason raw next stored.isOk)

/-- No reset cause is mapped to the panic tags; only the crash dump flag
sets them. -/
theorem BootHistory.mapCauseToReason_ne_crashRecovery (cause : Cause) :
    BootHistory.mapCauseToReason cause ≠ .crashRecovery := by
  cases cause <;> simp [BootHistory.mapCauseToReason]

theorem Bootstat.mapCauseToReason_ne_panicReset (cause : Cause) :
    Bootstat.mapCauseToReason cause ≠ .panicReset := by
  cases cause <;> simp [Bootstat.mapCauseToReason]

end MiniBootloader
