import MiniBootloader.BootAttempts
import MiniBootloader.ConsoleLog
import MiniBootloader.ImageFormat
import MiniBootloader.PanicCount

/-!
# A panic of the bootloader

The panic handler writes a crash dump with the tail of the UART log and
halts.  The boots that follow print the dump and record its reason for as
long as nothing erases it, since none of them writes to its partition.
-/

namespace MiniBootloader

open Numerals Words

/-- `p4_crashdump::record_panic`. -/
structure PanicWriter where
  Info : Type
  recordPanic : Info → UInt32 → List UInt8 → Nat → Nat → Flash → Flash

/-- The size of the crash dump partition. -/
def crashdumpPartitionLen : Nat := 0x2000

/-- What the boot code relies on: a recorded dump is found and decoded with
the tail it was given, and looking for a dump reads its partition only. -/
structure PanicWriter.Records (writer : PanicWriter) (P : Platform)
    (crate : P4Crashdump) : Prop where
  present : ∀ info offset tail flash, tail.length ≤ 256 →
    P.crashdumpIsPresent offset
      (writer.recordPanic info offset tail 0 0 flash) = true
  decoded : ∀ info offset tail flash, tail.length ≤ 256 →
    ∃ dump, crate.loadFromFlash offset
        (writer.recordPanic info offset tail 0 0 flash) = .ok dump ∧
      dump.uartTail = tail ∧ dump.bootCount = 0 ∧ dump.timestampUs = 0
  reads : ∀ offset flash flash',
    SameRange offset crashdumpPartitionLen flash flash' →
    P.crashdumpIsPresent offset flash' = P.crashdumpIsPresent offset flash ∧
      crate.loadFromFlash offset flash' = crate.loadFromFlash offset flash

/-- The panic handler. -/
def panic (writer : PanicWriter) (info : writer.Info) {ring : UartRing}
    (console : Console ring) (flash : Flash) : Flash :=
  let tail := console.panicTail
  writer.recordPanic info crashdumpPartitionOffset tail 0 0 flash

/-- The dump is in flash. -/
structure HoldsDump (P : Platform) (crate : P4Crashdump) (dump : CrashDump)
    (flash : Flash) : Prop where
  present : P.dumpPresent flash = true
  decoded : crate.loadFromFlash crashdumpPartitionOffset flash = .ok dump

/-- A boot that finds the crash dump as the step before left it. -/
structure BootKeepingDump (P : Platform) (before : Flash) (boot : Boot)
    (after : Flash) : Prop where
  found : SameRange crashdumpPartitionOffset crashdumpPartitionLen before
    boot.flash
  left : after = (main P boot.cause boot.flash).flash

/-- The boot prints the dump, and its records name it. -/
structure TellsDump {P : Platform} (texts : Texts P) (dump : CrashDump)
    (boot : Boot) : Prop where
  told : ∃ before after,
    printed (bootSteps texts boot.cause boot.flash) =
      before ++ CrashdumpReport.printDump texts.crashdump.tag dump
        crashdumpPartitionOffset ++ after
  recorded : ∃ historyStored record bootstatStored,
    (recordBoot P boot.cause boot.flash).2 =
      [.bootHistory BootHistory.bootlogPartitionOffset
        ⟨0, 0, .crashRecovery⟩ historyStored,
      .bootstat Bootstat.bootstatPartitionOffset .panicReset
        (P.rawOf boot.cause) record bootstatStored]

section Dump

variable {P : Platform} {crate : P4Crashdump} {dump : CrashDump}

theorem HoldsDump.sameRange {writer : PanicWriter}
    (records : writer.Records P crate) {flash flash' : Flash}
    (holds : HoldsDump P crate dump flash)
    (same : SameRange crashdumpPartitionOffset crashdumpPartitionLen flash
      flash') : HoldsDump P crate dump flash' := by
  obtain ⟨present, decoded⟩ := records.reads _ _ _ same
  constructor
  · rw [Platform.dumpPresent, present]
    exact holds.present
  · rw [decoded]
    exact holds.decoded

/-- The dump lies between otadata and the boot log. -/
theorem sameRange_dump_main (framed : P.Framed) (cause : Cause)
    (flash : Flash) :
    SameRange crashdumpPartitionOffset crashdumpPartitionLen flash
      (main P cause flash).flash := by
  obtain ⟨bootlog, bootstat⟩ := sparesReports_of_front
    (by decide :
      crashdumpPartitionOffset.toNat + crashdumpPartitionLen ≤ 0x12000)
  rw [main_flash]
  apply sameRange_bootPick framed bootlog bootstat
  exact sparesSector_of_apart (by decide)

/-- The dump is the first thing a boot prints after the reset cause. -/
theorem bootSteps_dump (texts : Texts P) (cause : Cause) (flash : Flash) :
    ∃ before after, bootSteps texts cause flash =
      before ++ [.print (CrashdumpReport.printIfPresent texts.crashdump
        (P.dumpPresent flash) crashdumpPartitionOffset flash)] ++ after := by
  have order (rest : Unit → BootM P Halt UInt32) :
      ∃ after, ((Sequence.reports texts cause >>= rest).run flash).events =
        .print (CrashdumpReport.printIfPresent texts.crashdump
          (P.dumpPresent flash) crashdumpPartitionOffset flash) ::
            after := by
    rw [Sequence.reports]
    simp only [Effectful.bind_assoc]
    rw [Effectful.run_ask_bind, Effectful.run_ask_bind, Sequence.print,
      Effectful.run_emit_bind]
    exact ⟨_, rfl⟩
  rw [bootSteps, Sequence.run_main, Sequence.afterSetUp, Sequence.print,
    Effectful.run_emit_bind, Sequence.print, Effectful.run_emit_bind]
  obtain ⟨after, steps⟩ := order _
  simp only [Ended.after]
  rw [steps]
  rw [← List.append_assoc, ← List.append_assoc]
  exact ⟨_, after, List.append_cons _ _ _⟩

theorem TellsDump.of_holds {texts : Texts P} {boot : Boot}
    (holds : HoldsDump P texts.crashdump dump boot.flash) :
    TellsDump texts dump boot := by
  constructor
  · obtain ⟨before, after, steps⟩ :=
      bootSteps_dump texts boot.cause boot.flash
    refine ⟨printed before, printed after, ?_⟩
    rw [steps, printed_append, printed_append]
    have text : CrashdumpReport.printIfPresent texts.crashdump
        (P.dumpPresent boot.flash) crashdumpPartitionOffset boot.flash =
          CrashdumpReport.printDump texts.crashdump.tag dump
            crashdumpPartitionOffset := by
      rw [CrashdumpReport.printIfPresent, holds.present, if_pos rfl,
        holds.decoded]
    rw [text]
    simp only [printed, List.flatMap_cons, List.flatMap_nil,
      BootStep.text, List.append_nil]
  · obtain ⟨historyStored, record, bootstatStored, reports⟩ :=
      recordBoot_reports P boot.cause boot.flash
    rw [holds.present, if_pos rfl, if_pos rfl] at reports
    exact ⟨historyStored, record, bootstatStored, reports⟩

/-- A boot that finds the dump tells it and leaves it there. -/
theorem BootKeepingDump.step {texts : Texts P} {writer : PanicWriter}
    (records : writer.Records P texts.crashdump) (framed : P.Framed)
    {before after : Flash} {boot : Boot}
    (holds : HoldsDump P texts.crashdump dump before)
    (booted : BootKeepingDump P before boot after) :
    TellsDump texts dump boot ∧ HoldsDump P texts.crashdump dump after := by
  have found := holds.sameRange records booted.found
  refine ⟨TellsDump.of_holds found, ?_⟩
  rw [booted.left]
  exact found.sameRange records (sameRange_dump_main framed _ _)

theorem BootKeepingDump.run {texts : Texts P} {writer : PanicWriter}
    (records : writer.Records P texts.crashdump) (framed : P.Framed)
    {first last : Flash} {boots : List Boot}
    (holds : HoldsDump P texts.crashdump dump first)
    (run : Run (BootKeepingDump P) first boots last) :
    ∀ boot ∈ boots, TellsDump texts dump boot := by
  have kept : HoldsDump P texts.crashdump dump last ∧
      ∀ boot ∈ boots, TellsDump texts dump boot := by
    apply run.invariant
      (motive := fun past flash => HoldsDump P texts.crashdump dump flash ∧
        ∀ boot ∈ past, TellsDump texts dump boot)
    · exact ⟨holds, fun _ member => absurd member List.not_mem_nil⟩
    · intro past before boot after held booted
      obtain ⟨told, left⟩ := booted.step records framed held.1
      refine ⟨left, ?_⟩
      intro other member
      rcases List.mem_append.mp member with earlier | here
      · exact held.2 other earlier
      · rw [List.mem_singleton.mp here]
        exact told
  exact kept.2

end Dump

/-- What the panic handler writes can be decoded. -/
theorem holdsDump_panic {P : Platform} {crate : P4Crashdump}
    {writer : PanicWriter} (records : writer.Records P crate)
    (info : writer.Info) {ring : UartRing} {console : Console ring}
    (flash : Flash) (short : console.panicTail.length ≤ 256) :
    ∃ dump, HoldsDump P crate dump (panic writer info console flash) ∧
      dump.uartTail = console.panicTail ∧ dump.bootCount = 0 ∧
      dump.timestampUs = 0 := by
  obtain ⟨dump, decoded, fields⟩ := records.decoded info
    crashdumpPartitionOffset console.panicTail flash short
  exact ⟨dump, ⟨records.present _ _ _ _ short, decoded⟩, fields⟩

/-- Wherever a panic stops the console, its dump holds the last 256 bytes
that were sent, without at most the very last one; and every boot prints this
dump and records a panic, until something else writes to its partition. -/
theorem panic_told_by_every_boot {P : Platform} {texts : Texts P}
    {writer : PanicWriter} {ring : UartRing} (keeps : ring.KeepsLast)
    (records : writer.Records P texts.crashdump) (framed : P.Framed)
    (info : writer.Info) (calls : List Uart.Call)
    (moves : List Console.Move) (flash : Flash) {boots : List Boot}
    {last : Flash}
    (run : Run (BootKeepingDump P)
      (panic writer info (Console.run (Console.start ring calls) moves) flash)
      boots last) :
    let console := Console.run (Console.start ring calls) moves
    ∃ sent late dump, console.wire ++ console.fifo = sent ++ late ∧
      late.length ≤ 1 ∧ dump.uartTail = sent.drop (sent.length - 256) ∧
      dump.bootCount = 0 ∧ dump.timestampUs = 0 ∧
      ∀ boot ∈ boots, TellsDump texts dump boot := by
  intro console
  obtain ⟨sent, late, split, short, tail⟩ :=
    Console.exists_panicTail keeps calls moves
  have bounded : console.panicTail.length ≤ 256 := by
    rw [tail, List.length_drop]
    omega
  obtain ⟨dump, holds, copied, count, time⟩ :=
    holdsDump_panic records info flash bounded
  refine ⟨sent, late, dump, split, short, ?_, count, time,
    BootKeepingDump.run records framed holds run⟩
  rw [copied, tail]

/-! ## A sample -/

namespace StandIn

/-- A marker, the length and the tail in 256 bytes. -/
def dumpBytes (tail : List UInt8) : List UInt8 :=
  0xD0 :: UInt8.ofNat tail.length :: UInt8.ofNat (tail.length / 256) ::
    (tail ++ List.replicate (256 - tail.length) 0)

def dumpOf (bytes : List UInt8) : CrashDump :=
  { timestampUs := 0
    reasonTag := 1
    bootCount := 0
    mcause := 0
    mepc := 0
    mtval := 0
    mstatus := 0
    message := []
    registers := Vector.replicate 31 0
    uartTail :=
      (bytes.drop 3).take
        ((bytes.getD 1 0).toNat + 256 * (bytes.getD 2 0).toNat) }

def panicWriter : PanicWriter :=
  { Info := Unit
    recordPanic := fun _ offset tail _ _ flash =>
      flash.program offset (dumpBytes tail) }

def crashdump : P4Crashdump :=
  { texts.crashdump with
    loadFromFlash := fun offset flash =>
      .ok (dumpOf (flash.slice offset 259).toList) }

def dumpTexts : Texts uptimeStandIn :=
  { texts with crashdump := crashdump }

end StandIn

theorem uartTail_dumpOf {tail : List UInt8} (short : tail.length ≤ 256) :
    (StandIn.dumpOf (StandIn.dumpBytes tail)).uartTail = tail := by
  have low : (UInt8.ofNat tail.length).toNat = tail.length % 256 :=
    UInt8.toNat_ofNat' ..
  have high : (UInt8.ofNat (tail.length / 256)).toNat =
      tail.length / 256 % 256 := UInt8.toNat_ofNat' ..
  have number : tail.length % 256 + 256 * (tail.length / 256 % 256) =
      tail.length := by
    omega
  simp only [StandIn.dumpOf, StandIn.dumpBytes, List.drop_succ_cons,
    List.drop_zero, List.getD_cons_succ, List.getD_cons_zero, low, high,
    number, List.take_left]

theorem slice_dumpBytes (offset : UInt32) {tail : List UInt8}
    (short : tail.length ≤ 256) (flash : Flash) :
    ((flash.program offset (StandIn.dumpBytes tail)).slice offset
      259).toList = StandIn.dumpBytes tail := by
  have full : (StandIn.dumpBytes tail).length = 259 := by
    simp only [StandIn.dumpBytes, List.length_cons, List.length_append,
      List.length_replicate]
    omega
  have read := slice_program flash offset
    (⟨(StandIn.dumpBytes tail).toArray, by simp [full]⟩ : Vector UInt8 259)
    (by decide)
  exact congrArg Vector.toList read

theorem records_panicWriter :
    StandIn.panicWriter.Records uptimeStandIn
      StandIn.dumpTexts.crashdump := by
  constructor
  · intro _ offset tail flash short
    have inside : InRange offset (StandIn.dumpBytes tail).length offset := by
      simp [InRange, StandIn.dumpBytes]
    have marker : (flash.program offset (StandIn.dumpBytes tail)).byte offset =
        (StandIn.dumpBytes tail).getD (offset - offset).toNat 0 :=
      if_pos inside
    rw [UInt32.sub_self] at marker
    exact beq_iff_eq.mpr marker
  · intro _ offset tail flash short
    refine ⟨_, rfl, ?_, rfl, rfl⟩
    have full := slice_dumpBytes offset short flash
    have decoded := uartTail_dumpOf short
    rw [← full] at decoded
    exact decoded
  · intro offset flash flash' same
    constructor
    · have first : InRange offset crashdumpPartitionLen offset := by
        simp [InRange, crashdumpPartitionLen]
      have byte := same.bytes offset first
      exact congrArg (fun b : UInt8 => b == 0xD0) byte
    · have bytes : flash'.slice offset 259 = flash.slice offset 259 :=
        same.slice (by decide) (by decide)
      exact congrArg
        (fun slice : Vector UInt8 259 =>
          Except.ok (StandIn.dumpOf slice.toList)) bytes

/-- The panic hits after the second byte has reached the ring, before the
carriage return has. -/
theorem panic_told_by_every_boot_sample :
    let moves : List Console.Move :=
      List.replicate 8 (.cpu 0 255) ++ [.send]
    let console := Console.run (Console.start Console.unboundedRing
      [.print [0x6F, 0x6B, 10]]) moves
    let first := panic StandIn.panicWriter () console (oneSlotFlash .a)
    ∃ dump, [0x6F, 0x6B] <+: dump.uartTail ∧
      ∀ boot ∈ successiveBoots uptimeStandIn
          [.powerOn, .hpCoreSoftware, .superWatchdog] first,
        TellsDump StandIn.dumpTexts dump boot := by
  intro moves console first
  have steps (cause : Cause) (flash : Flash) :
      BootKeepingDump uptimeStandIn flash ⟨cause, flash⟩
        (main uptimeStandIn cause flash).flash :=
    ⟨SameRange.refl _ _ _, rfl⟩
  obtain ⟨last, run⟩ := exists_run_successiveBoots steps
    [.powerOn, .hpCoreSoftware, .superWatchdog] first
  obtain ⟨sent, late, dump, split, short, tail, _, _, told⟩ :=
    panic_told_by_every_boot Console.keepsLast_unboundedRing
      records_panicWriter framed_uptimeStandIn () [.print [0x6F, 0x6B, 10]]
      moves (oneSlotFlash .a) run
  refine ⟨dump, ?_, told⟩
  have bytes : sent ++ late = [0x6F, 0x6B, 0x0D] := by
    rw [← split]
    decide
  have total := congrArg List.length bytes
  rw [List.length_append, List.length_cons, List.length_cons,
    List.length_singleton] at total
  have front : sent.length - 256 = 0 := by omega
  rw [tail, front, List.drop_zero]
  have both : ([0x6F, 0x6B] : List UInt8) <+: [0x6F, 0x6B, 0x0D] :=
    ⟨[0x0D], rfl⟩
  apply List.prefix_of_prefix_length_le both ⟨late, bytes⟩
  simp only [List.length_cons, List.length_nil]
  omega

end MiniBootloader
