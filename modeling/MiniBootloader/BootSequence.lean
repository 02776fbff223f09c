import MiniBootloader.ConsoleText
import MiniBootloader.CrashdumpReport
import MiniBootloader.Library.Effectful

/-!
# The boot sequence with everything it does

`main` as the source has it: every line on the console, the watchdogs, the
PSRAM bring-up, the drain of the UART and the hand-off to the app, in order.
The stores, reads and copies are the events of the boot sequence that leaves
the rest out.
-/

namespace MiniBootloader

open Numerals

/-! ## What the texts need of other crates -/

/-- An entry of the boot history, as it is printed. -/
structure HistoryEntry where
  seq : Nat
  timestampUs : Nat
  previousUptimeUs : Nat
  reason : UInt32

structure HistoryText (crate : P4BootHistory) where
  reasonTag : BootHistory.Reason → UInt32
  len : crate.History → Nat
  /-- `iter_recent`, the newest entry first. -/
  iterRecent : crate.History → List HistoryEntry
  /-- The status of `FlashError::Rom`. -/
  romStatus : crate.Error → Option Int32
  errorText : crate.Error → Text

structure BootstatText (crate : P4Bootstat) where
  bootCount : crate.Record → Nat
  lastReason : crate.Record → Text
  lastReasonRaw : crate.Record → UInt8
  crashCount : crate.Record → Nat
  uptimeHours : crate.Record → Nat
  lastPanicPc : crate.Record → UInt32
  romStatus : crate.Error → Option Int32
  errorText : crate.Error → Text

/-- What is printed of the PSRAM mode registers. -/
structure PsramInfo where
  vendorId : UInt8
  density : UInt8
  /-- `PsramSize::from_mr2_density` in bytes. -/
  size : Option Nat

structure Texts (P : Platform) where
  cause : Cause → Text
  crashdump : P4Crashdump
  history : HistoryText P.history
  bootstat : BootstatText P.bootstat
  otaError : P.ota.Error → Text
  slot : Slot → Text
  /-- The `Debug` of a string. -/
  debugStr : String → Text
  /-- What `psram::init` returns in this boot. -/
  psramInit : Except Text PsramInfo

/-! ## Steps -/

def wdtTimeoutMs : UInt32 := 30000

def cacheMapL1Icache0 : UInt32 := (1 : UInt32) <<< 0
def cacheMapL1Icache1 : UInt32 := (1 : UInt32) <<< 1
def cacheMapL1Dcache : UInt32 := (1 : UInt32) <<< 4
def cacheMapL2 : UInt32 := (1 : UInt32) <<< 5

inductive BootStep (P : Platform) where
  | print (text : Text)
  | disableAllWdts
  | initPhase2Full
  | psramInit
  | boot (event : BootEvent P)
  | drainUart
  | enableTimg1Reset (timeoutMs : UInt32)
  | cacheWritebackAll (map : UInt32)
  | cacheInvalidateAll (map : UInt32)
  | fenceI
  | jump (entryAddr : UInt32)

abbrev BootM (P : Platform) (ε α : Type) :=
  Effectful Flash (BootStep P) ε α

namespace Sequence

section Parts

variable {P : Platform} {ε : Type}

def print (text : Text) : BootM P ε Unit :=
  Effectful.emit (.print text)

def bootEvent (event : BootEvent P) : BootM P ε Unit :=
  Effectful.emit (.boot event)

/-- What a read of the picker shows. -/
def showPick (event : Event) : List (BootStep P) :=
  [.boot (.pick (.flash event))]

/-- The loader prints a line for every segment it is about to copy. -/
def showImage : Event → List (BootStep P)
  | .onSegment i la dl =>
      [.boot (.image (.onSegment i la dl)), .print (segmentLine i la dl)]
  | event => [.boot (.image event)]

end Parts

/-! ## The reports -/

section Reports

variable {P : Platform} (texts : Texts P) {ε : Type}

def historyReasonName (tag : BootHistory.Reason → UInt32) (r : UInt32) :
    Text :=
  if r = tag .unknown then "unknown".toList
  else if r = tag .powerOn then "power-on".toList
  else if r = tag .externalReset then "external".toList
  else if r = tag .softwareReset then "software".toList
  else if r = tag .watchdogReset then "watchdog".toList
  else if r = tag .brownoutReset then "brownout".toList
  else if r = tag .deepSleepWake then "deep-sleep-wake".toList
  else if r = tag .crashRecovery then "crash-recovery".toList
  else if r = tag .intrusion then "intrusion".toList
  else "?".toList

def printRecentN : Nat := 5

def historyLine (tag : BootHistory.Reason → UInt32) (entry : HistoryEntry) :
    Text :=
  newline ("  seq=".toList ++ padLeft ' ' 5 (decimal entry.seq) ++
    "  ts_us=".toList ++ padLeft ' ' 16 (decimal entry.timestampUs) ++
    "  prev_uptime_us=".toList ++
    padLeft ' ' 13 (decimal entry.previousUptimeUs) ++
    "  reason=".toList ++ decimal entry.reason.toNat ++ " (".toList ++
    historyReasonName tag entry.reason ++ ")".toList)

def printRecent (history : P.history.History) : BootM P ε Unit := do
  let total := texts.history.len history
  let take := min total printRecentN
  if take = 0 then
    pure ()
  else do
    print (newline ("boot-history: last ".toList ++ decimal take ++
      " of ".toList ++ decimal total ++ " entries:".toList))
    print ((texts.history.iterRecent history).take take |>.flatMap
      (historyLine texts.history.reasonTag))

def printHistory (history : P.history.History) :
    Except P.history.Error Unit → BootM P ε Unit
  | .ok _ => do
      let seq := ((texts.history.iterRecent history).head?.map
        HistoryEntry.seq).getD 0
      print (newline ("boot-history: appended seq #".toList ++
        decimal seq ++ " (now ".toList ++
        decimal (texts.history.len history) ++ " entries)".toList))
      printRecent texts history
  | .error e =>
      match texts.history.romStatus e with
      | some s =>
          print (newline ("boot-history: flash write failed (rom=".toList ++
            integer s.toInt ++ ")".toList))
      | none =>
          print (newline ("boot-history: write failed: ".toList ++
            texts.history.errorText e))

def recordHistory (partitionOffset : UInt32)
    (bootReason : BootHistory.Reason) : BootM P ε Unit := do
  let loaded ← Effectful.ask
    (P.history.loadFromFlashOrEmpty partitionOffset)
  let entry : BootHistory.Entry := ⟨0, 0, bootReason⟩
  let history := P.history.append loaded entry
  let stored ← Effectful.update
    (P.history.storeToFlash partitionOffset history)
  bootEvent (.report (.bootHistory partitionOffset entry stored.isOk))
  printHistory texts history stored

def printBootstat (next : P.bootstat.Record) :
    Except P.bootstat.Error Unit → BootM P ε Unit
  | .ok _ => do
      print (newline ("bootstat: boot #".toList ++
        decimal (texts.bootstat.bootCount next) ++ " reason=".toList ++
        texts.bootstat.lastReason next ++ " (raw 0x".toList ++
        padLeft '0' 2 (upperHex (texts.bootstat.lastReasonRaw next).toNat) ++
        ") crashes=".toList ++ decimal (texts.bootstat.crashCount next) ++
        " uptime=".toList ++ decimal (texts.bootstat.uptimeHours next) ++
        "h last_run=".toList ++
        decimal (P.bootstat.lastUptimeSeconds next).toNat ++ "s".toList))
      if texts.bootstat.lastPanicPc next ≠ 0 then
        print (newline ("bootstat: last panic PC = 0x".toList ++
          padLeft '0' 8
            (upperHex (texts.bootstat.lastPanicPc next).toNat)))
      else
        pure ()
  | .error e =>
      match texts.bootstat.romStatus e with
      | some s =>
          print (newline ("bootstat: flash write failed (rom=".toList ++
            integer s.toInt ++ ")".toList))
      | none =>
          print (newline ("bootstat: write failed: ".toList ++
            texts.bootstat.errorText e))

def recordBootstat (partitionOffset : UInt32) (cause : Cause)
    (crashdumpWasPresent : Bool) : BootM P ε Unit := do
  let prev ← Effectful.ask (P.bootstat.loadLatestOrFresh partitionOffset)
  let reason :=
    if crashdumpWasPresent then .panicReset
    else Bootstat.mapCauseToReason cause
  let raw := P.rawOf cause
  let next := P.bootstat.recordBoot prev reason raw
    (P.bootstat.lastUptimeSeconds prev)
  let stored ← Effectful.update
    (P.bootstat.appendRecord partitionOffset next)
  bootEvent (.report (.bootstat partitionOffset reason raw next stored.isOk))
  printBootstat texts next stored

/-- `main` from the crash dump to the bootstat record. -/
def reports (resetCause : Cause) : BootM P ε Unit := do
  let crashWasPresent ← Effectful.ask
    (P.crashdumpIsPresent crashdumpPartitionOffset)
  let dump ← Effectful.ask fun flash =>
    CrashdumpReport.printIfPresent texts.crashdump
      (P.crashdumpIsPresent crashdumpPartitionOffset flash)
      crashdumpPartitionOffset flash
  print dump
  let bootReason :=
    if crashWasPresent then .crashRecovery
    else BootHistory.mapCauseToReason resetCause
  recordHistory texts BootHistory.bootlogPartitionOffset bootReason
  recordBootstat texts Bootstat.bootstatPartitionOffset resetCause
    crashWasPresent

def psram : BootM P ε Unit := do
  Effectful.emit .psramInit
  match texts.psramInit with
  | .ok regs =>
      print (newline ("psram::init() OK vendor=0x".toList ++
        padLeft '0' 2 (upperHex regs.vendorId.toNat) ++
        " density=0x".toList ++ upperHex regs.density.toNat ++
        " (".toList ++
        decimal ((regs.size.map (· / (1024 * 1024))).getD 0) ++
        " MB)".toList))
  | .error e =>
      print (newline ("psram::init() FAILED: ".toList ++ e ++
        " (continuing)".toList))

end Reports

/-! ## Picking the slot -/

section Pick

variable {P : Platform} (texts : Texts P)

def fallBackToFactory (skipped : Slot) :
    BootM P SlotSelectError (PartitionEntry × SelectionOutcome) := do
  match ← (Effectful.observe findFactoryApp showPick).attempt with
  | .ok part =>
      match ← (Effectful.observe (readHeader part.offset)
          showPick).attempt with
      | .ok _ => do
          print (factoryLine (texts.debugStr part.labelStr) part)
          pure (part, .factoryFallback skipped)
      | .error e => do
          print (newline ("factory app header invalid: ".toList ++ e.text))
          Effectful.throw .noBootableApp
  | .error _ => Effectful.throw .noBootableApp

def bootChosenSlot (chosenSlot : Slot) (outcome : SelectionOutcome) :
    BootM P SlotSelectError (PartitionEntry × SelectionOutcome) := do
  let label := chosenSlot.label
  match ← (Effectful.observe (findByLabel label) showPick).attempt with
  | .ok part =>
      match ← (Effectful.observe (readHeader part.offset)
          showPick).attempt with
      | .ok _ => do
          print (bootSlotLine label part)
          pure (part, outcome)
      | .error e => do
          print (newline ("slot ".toList ++ label.toList ++
            " header invalid (".toList ++ e.text ++
            ") — falling back to factory".toList))
          fallBackToFactory texts chosenSlot
  | .error e => do
      print (newline ("slot ".toList ++ label.toList ++
        " lookup failed (".toList ++ e.text ++
        ") — falling back to factory".toList))
      fallBackToFactory texts chosenSlot

def stateOrFresh {ε : Type} :
    Except P.ota.Error P.ota.OtaData → BootM P ε (P.ota.OtaData × Bool)
  | .ok s => pure (s, true)
  | .error e => do
      print (newline ("otadata: decode failed (".toList ++
        texts.otaError e ++ ") — using fresh".toList))
      pure (P.ota.fresh, false)

/-- Step 1 of `pick`. -/
def loadOtadata {ε : Type} : BootM P ε (P.ota.OtaData × Bool) := do
  let loaded ← Effectful.ask (P.ota.loadFromFlash otadataPartitionOffset)
  stateOrFresh texts loaded

/-- The `match action` of `pick`. -/
def planAction {ε : Type} (decodedOk : Bool) :
    BootAction P.ota.OtaData →
      BootM P ε (Slot × SelectionOutcome × Option P.ota.OtaData)
  | .stable slot =>
      let outcome := if decodedOk then .otaStable slot else .otaFresh
      pure (slot, outcome, none)
  | .pending slot attempt newState => do
      print (newline ("otadata: slot ".toList ++ texts.slot slot ++
        " pending, attempt ".toList ++ decimal attempt.toNat ++
        "/".toList ++ decimal P.ota.maxAttempts.toNat))
      pure (slot, .otaPending slot attempt, some newState)
  | .rollback fromSlot toSlot newState => do
      print (newline ("otadata: slot ".toList ++ texts.slot fromSlot ++
        " exceeded ".toList ++ decimal P.ota.maxAttempts.toNat ++
        " attempts — rolling back to ".toList ++ texts.slot toSlot))
      pure (toSlot, .otaRollback fromSlot toSlot, some newState)

def logStore {ε : Type} : Except P.ota.Error Unit → BootM P ε Unit
  | .ok _ => pure ()
  | .error e =>
      print (newline ("otadata: store_to_flash FAILED (".toList ++
        texts.otaError e ++ ") — booting anyway".toList))

def persistState {ε : Type} :
    Option P.ota.OtaData → BootM P ε Unit
  | none => pure ()
  | some newState => do
      let stored ← Effectful.update
        (P.ota.storeToFlash otadataPartitionOffset newState)
      bootEvent (.pick
        (.otadataStore otadataPartitionOffset newState stored.isOk))
      logStore texts stored

def pick : BootM P SlotSelectError (PartitionEntry × SelectionOutcome) := do
  let (state, decodedOk) ← loadOtadata texts
  let action := P.ota.selectSlot state P.ota.maxAttempts
  let (chosenSlot, outcome, persist) ← planAction texts decodedOk action
  persistState texts persist
  bootChosenSlot texts chosenSlot outcome

end Pick

/-! ## The image -/

section Image

variable {P : Platform}

/-- A line for the error, and the heartbeat loop. -/
def halt {α : Type} (reason : Halt) : BootM P Halt α := do
  print reason.report
  Effectful.throw reason

def readImage (off : UInt32) : BootM P Halt ImageHeader := do
  match ← (Effectful.observe (readHeader off) showImage).attempt with
  | .ok h => do
      print (headerLine h)
      pure h
  | .error e => halt (.header e)

def verifyGate (off : UInt32) (header : ImageHeader) : BootM P Halt Unit :=
  if header.hashAppended then do
    match ← (Effectful.observe (verifyAppSha256 P.sha off header)
        showImage).attempt with
    | .ok d => print (digestLine d)
    | .error e => halt (.verify e)
  else
    print (newline
      "sha256: skipped (image declares hash_appended=0)".toList)

def loadImage (off : UInt32) (header : ImageHeader) : BootM P Halt Unit := do
  match ← (Effectful.observe (loadSegments off header)
      showImage).attempt with
  | .ok () => pure ()
  | .error e => halt (.load e)

def jumpToEntry (entryAddr : UInt32) : BootM P Halt Unit := do
  Effectful.emit (.cacheWritebackAll (cacheMapL1Dcache ||| cacheMapL2))
  Effectful.emit (.cacheInvalidateAll
    (cacheMapL1Icache0 ||| cacheMapL1Icache1 ||| cacheMapL2))
  Effectful.emit .fenceI
  Effectful.emit (.jump entryAddr)

/-- `main` once the segments are loaded. -/
def handOff (entryAddr : UInt32) : BootM P Halt UInt32 := do
  print (newline ("mini-bootloader: arming TIMG1 WDT (".toList ++
    decimal wdtTimeoutMs.toNat ++ " ms) — app must feed or call ".toList ++
    "bootloader::wdt::disable_timg1()".toList))
  print (newline ("mini-bootloader: jumping to app @ 0x".toList ++
    padLeft '0' 8 (upperHex entryAddr.toNat)))
  Effectful.emit .drainUart
  Effectful.emit (.enableTimg1Reset wdtTimeoutMs)
  jumpToEntry entryAddr
  pure entryAddr

def bootImage (off : UInt32) : BootM P Halt UInt32 := do
  let header ← readImage off
  verifyGate off header
  loadImage off header
  handOff header.entryAddr

end Image

/-- `main` up to the reset cause. -/
def bringUp {P : Platform} {ε : Type} (texts : Texts P)
    (resetCause : Cause) : BootM P ε Unit := do
  print (newline "\n=== mini-bootloader alive @ 0x4FF20000 ===".toList)
  Effectful.emit .disableAllWdts
  Effectful.emit .initPhase2Full
  print (newline "mini-bootloader: init_phase2_full() done".toList)
  print (newline ("reset cause: ".toList ++ texts.cause resetCause ++
    " (raw 0x".toList ++
    padLeft '0' 2 (upperHex (P.rawOf resetCause).toNat) ++ ")".toList))

def pickSlot {P : Platform} (texts : Texts P) :
    BootM P Halt (PartitionEntry × SelectionOutcome) := do
  match ← (pick texts).attempt with
  | .ok pair => pure pair
  | .error e => halt (.pick e)

/-- `main`; the result is the address jumped to, or why the heartbeat loop is
entered. -/
def main {P : Platform} (texts : Texts P) (resetCause : Cause) :
    BootM P Halt UInt32 := do
  bringUp texts resetCause
  reports texts resetCause
  psram texts
  let (chosen, _) ← pickSlot texts
  bootImage chosen.offset

end Sequence

end MiniBootloader
