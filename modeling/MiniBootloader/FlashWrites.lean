import MiniBootloader.ImageFormat
import MiniBootloader.Library.ErasableCells
import MiniBootloader.LoadMemory

/-!
# Erasing and writing flash

`erase_sector` and `write` call ROM routines, which may fail half-way.  A
write clears bits and an erase of the sector sets them all, so what a byte
holds after any order of both follows from its own operations.
-/

namespace MiniBootloader

open ErasableCells Words

/-! ## The routines -/

/-- The ROM routines that change flash, each with the status it returns. -/
structure FlashRom where
  /-- `esp_rom_spiflash_erase_sector`, of a sector number. -/
  eraseSector : UInt32 → Flash → Flash × Int32
  /-- `esp_rom_spiflash_write`, of the bytes at the source and an `i32`
  length. -/
  write : UInt32 → List UInt8 → Int32 → Flash → Flash × Int32

/-- `Ok` for status zero. -/
def romResult (r : Int32) : Except FlashError Unit :=
  if r = 0 then .ok () else .error (.rom r)

/-- `flash::erase_sector`. -/
def eraseSector (rom : FlashRom) (sectorOffset : UInt32) (flash : Flash) :
    Flash × Except FlashError Unit :=
  if sectorOffset % UInt32.ofNat sectorSize ≠ 0 then
    (flash, .error .unaligned)
  else
    let (flash', r) :=
      rom.eraseSector (sectorOffset / UInt32.ofNat sectorSize) flash
    (flash', romResult r)

/-- `flash::write` of the bytes at `src`. -/
def write (rom : FlashRom) (addr : UInt32) (src : Dest)
    (bytes : List UInt8) (flash : Flash) :
    Flash × Except FlashError Unit :=
  if bytes.length % 4 ≠ 0 ∨ src.misaligned then
    (flash, .error .unaligned)
  else
    let (flash', r) :=
      rom.write addr bytes (Int32.ofNat bytes.length) flash
    (flash', romResult r)

/-- `flash::read_u32`. -/
def readU32 (addr : UInt32) : FlashM FlashError UInt32 := do
  let buf ← read addr .words 4
  pure (u32FromLeBytes buf[0] buf[1] buf[2] buf[3])

/-! ## NOR flash -/

/-- A sector is erased; one that failed may hold anything. -/
structure ErasesSector (sector : UInt32) (before after : Flash)
    (r : Int32) : Prop where
  erased : r = 0 → ∀ address, InRange sector sectorSize address →
    after.byte address = 0xFF
  frame : ∀ address, ¬ InRange sector sectorSize address →
    after.byte address = before.byte address
  status : after.status = before.status

/-- Bytes are programmed; a failed write has cleared some of the bits it
should. -/
structure ProgramsBytes (start : UInt32) (bytes : List UInt8)
    (before after : Flash) (r : Int32) : Prop where
  programmed : r = 0 → ∀ address b, bytesAt start bytes address = some b →
    after.byte address = before.byte address &&& b
  cut : ∀ address b, bytesAt start bytes address = some b →
    after.byte address &&& (before.byte address &&& b) =
        before.byte address &&& b ∧
      before.byte address &&& after.byte address = after.byte address
  frame : ∀ address, bytesAt start bytes address = none →
    after.byte address = before.byte address
  status : after.status = before.status

/-- The ROM routines do what NOR flash does. -/
structure FlashRom.Nor (rom : FlashRom) : Prop where
  erases : ∀ sector flash, sector % UInt32.ofNat sectorSize = 0 →
    let erased :=
      rom.eraseSector (sector / UInt32.ofNat sectorSize) flash
    ErasesSector sector flash erased.1 erased.2
  programs : ∀ start bytes flash, bytes.length < 2 ^ 31 →
    let written :=
      rom.write start bytes (Int32.ofNat bytes.length) flash
    ProgramsBytes start bytes flash written.1 written.2

/-- A call of the code with its result. -/
inductive FlashOp where
  | erase (sectorOffset : UInt32) (result : Except FlashError Unit)
  | write (addr : UInt32) (src : Dest) (bytes : List UInt8)
      (result : Except FlashError Unit)

/-- One call.  The ROM may fail in one call and succeed in the next. -/
inductive FlashStep : Flash → FlashOp → Flash → Prop where
  | erase {rom : FlashRom} (nor : rom.Nor) (sectorOffset : UInt32)
      (before : Flash) :
      FlashStep before
        (.erase sectorOffset (eraseSector rom sectorOffset before).2)
        (eraseSector rom sectorOffset before).1
  | write {rom : FlashRom} (nor : rom.Nor) (addr : UInt32) (src : Dest)
      {bytes : List UInt8} (short : bytes.length < 2 ^ 31)
      (before : Flash) :
      FlashStep before
        (.write addr src bytes (MiniBootloader.write rom addr src bytes
          before).2)
        (MiniBootloader.write rom addr src bytes before).1

/-! ## One byte -/

/-- A byte of flash, ordered by the bits that are set. -/
def NorByte := UInt8

namespace NorByte

instance : Min NorByte :=
  ⟨UInt8.land⟩

instance : SemilatticeInf NorByte :=
  SemilatticeInf.mk' UInt8.and_comm UInt8.and_assoc fun _ => UInt8.and_self

/-- The erased byte. -/
instance : OrderTop NorByte :=
  { top := (0xFF : UInt8)
    le_top := fun a : UInt8 =>
      show (-1 : UInt8) &&& a = a from UInt8.neg_one_and }

end NorByte

/-- What a call does to the byte at an address: nothing where it is refused,
or where it is about other bytes. -/
def FlashOp.cell (address : UInt32) : FlashOp → Option (CellOp NorByte)
  | .erase _ (.error .unaligned) => none
  | .erase sector result =>
      if InRange sector sectorSize address then some (.erase result.isOk)
      else none
  | .write _ _ _ (.error .unaligned) => none
  | .write addr _ bytes result =>
      (bytesAt addr bytes address).map fun b => .program b result.isOk

theorem cell_erase (sector : UInt32) (r : Int32) (address : UInt32) :
    (FlashOp.erase sector (romResult r)).cell address =
      if InRange sector sectorSize address then some (.erase (r = 0))
      else none := by
  by_cases zero : r = 0
  · simp only [romResult, zero, if_true, FlashOp.cell]
    rfl
  · simp only [romResult, zero, if_false, FlashOp.cell]
    rfl

theorem cell_write (addr : UInt32) (src : Dest) (bytes : List UInt8)
    (r : Int32) (address : UInt32) :
    (FlashOp.write addr src bytes (romResult r)).cell address =
      (bytesAt addr bytes address).map fun b => .program b (r = 0) := by
  by_cases zero : r = 0
  · simp only [romResult, zero, if_true, FlashOp.cell]
    rfl
  · simp only [romResult, zero, if_false, FlashOp.cell]
    rfl

theorem program_of_cell_write {addr address : UInt32} {src : Dest}
    {bytes : List UInt8} {result : Except FlashError Unit} {b : UInt8}
    {cellOp : CellOp NorByte} (target : bytesAt addr bytes address = some b)
    (shown : (FlashOp.write addr src bytes result).cell address =
      some cellOp) :
    ∃ done, cellOp = .program (show NorByte from b) done := by
  cases result with
  | ok done =>
      simp only [FlashOp.cell, target] at shown
      cases shown
      exact ⟨true, rfl⟩
  | error error =>
      cases error with
      | unaligned => cases shown
      | rom r =>
          simp only [FlashOp.cell, target] at shown
          cases shown
          exact ⟨false, rfl⟩

/-- What the ROM did to a byte, as an operation on the byte. -/
def FollowsOp (address : UInt32) (before : Flash) (op : FlashOp)
    (after : Flash) : Prop :=
  (op.cell address = none → after.byte address = before.byte address) ∧
    ∀ cellOp, op.cell address = some cellOp →
      Changes (show NorByte from before.byte address) cellOp
        (after.byte address)

theorem ErasesSector.follows {sector : UInt32} {before after : Flash}
    {r : Int32} (erased : ErasesSector sector before after r)
    (address : UInt32) :
    FollowsOp address before (.erase sector (romResult r)) after := by
  rw [FollowsOp, cell_erase]
  by_cases inside : InRange sector sectorSize address
  · rw [if_pos inside]
    refine ⟨fun silent => (nomatch silent), ?_⟩
    intro cellOp same
    cases same
    by_cases zero : r = 0
    · have byte := erased.erased zero address inside
      rw [byte, decide_eq_true zero]
      exact .erase _
    · rw [decide_eq_false zero]
      exact .eraseCut _ _
  · rw [if_neg inside]
    exact ⟨fun _ => erased.frame address inside,
      fun _ touched => nomatch touched⟩

theorem ProgramsBytes.follows {start : UInt32} {bytes : List UInt8}
    {before after : Flash} {r : Int32}
    (written : ProgramsBytes start bytes before after r) (src : Dest)
    (address : UInt32) :
    FollowsOp address before (.write start src bytes (romResult r))
      after := by
  rw [FollowsOp, cell_write]
  cases target : bytesAt start bytes address with
  | none =>
      exact ⟨fun _ => written.frame address target,
        fun _ touched => nomatch touched⟩
  | some b =>
      refine ⟨fun silent => (nomatch silent), ?_⟩
      intro cellOp same
      cases same
      by_cases zero : r = 0
      · have byte := written.programmed zero address b target
        rw [byte, decide_eq_true zero]
        exact .program (V := NorByte) _ _
      · obtain ⟨low, high⟩ := written.cut address b target
        rw [decide_eq_false zero]
        exact .programCut (V := NorByte) low high

section Step

variable {before after : Flash} {op : FlashOp}

theorem FlashStep.status (step : FlashStep before op after) :
    after.status = before.status := by
  cases step with
  | erase nor sector =>
      rw [eraseSector]
      split
      · rfl
      · rename_i aligned
        exact (nor.erases sector before (not_not.mp aligned)).status
  | write nor addr src short =>
      rw [MiniBootloader.write]
      split
      · rfl
      · exact (nor.programs addr _ before short).status

theorem FlashStep.follows (step : FlashStep before op after)
    (address : UInt32) : FollowsOp address before op after := by
  cases step with
  | erase nor sector =>
      rw [eraseSector]
      split
      · exact ⟨fun _ => rfl, fun _ touched => nomatch touched⟩
      · rename_i aligned
        exact (nor.erases sector before (not_not.mp aligned)).follows address
  | write nor addr src short =>
      rw [MiniBootloader.write]
      split
      · exact ⟨fun _ => rfl, fun _ touched => nomatch touched⟩
      · exact (nor.programs addr _ before short).follows src address

end Step

/-! ## Runs -/

section Runs

variable {first last : Flash} {ops : List FlashOp}
  (run : Run FlashStep first ops last)

include run

theorem status_of_run : last.status = first.status := by
  induction run with
  | nil flash => rfl
  | cons here rest ih => rw [ih, here.status]

/-- Each byte goes its own way. -/
theorem changes_of_run (address : UInt32) :
    Run Changes (show NorByte from first.byte address)
      (ops.filterMap (FlashOp.cell address)) (last.byte address) := by
  apply run.project (fun flash => (show NorByte from flash.byte address))
  · intro before op after step
    exact (step.follows address).1
  · intro before op after cellOp step
    exact (step.follows address).2 cellOp

end Runs

/-- The byte was erased and later written with its content, in any number of
tries of which one was done; nothing else touched it since the erase. -/
def WrittenWith (content : UInt32 → UInt8) (ops : List FlashOp)
    (address : UInt32) : Prop :=
  ∃ past sector future, ops = past ++ .erase sector (.ok ()) :: future ∧
    InRange sector sectorSize address ∧
    (∀ op ∈ future, ∀ cellOp, op.cell address = some cellOp →
      ∃ done, cellOp = .program (content address) done) ∧
    ∃ op ∈ future,
      op.cell address = some (.program (content address) true)

theorem byte_of_written {first last : Flash} {ops : List FlashOp}
    (run : Run FlashStep first ops last) {content : UInt32 → UInt8}
    {address : UInt32} (written : WrittenWith content ops address) :
    last.byte address = content address := by
  obtain ⟨past, sector, future, rfl, inside, only, op, member, done⟩ :=
    written
  obtain ⟨before, after, _, erased, rest⟩ := run.split
  have cells := changes_of_run (.cons erased rest) address
  have here : FlashOp.cell address (.erase sector (.ok ())) =
      some (.erase true) := if_pos inside
  rw [List.filterMap_cons_some here] at cells
  apply run_erase_program cells
  · intro cellOp touched
    obtain ⟨op, inFuture, same⟩ := List.mem_filterMap.mp touched
    exact only op inFuture cellOp same
  · exact List.mem_filterMap.mpr ⟨op, member, done⟩

/-- The word at an address, low byte first. -/
def wordOf (content : UInt32 → UInt8) (addr : UInt32) : UInt32 :=
  u32FromLeBytes (content (addr + UInt32.ofNat 0))
    (content (addr + UInt32.ofNat 1)) (content (addr + UInt32.ofNat 2))
    (content (addr + UInt32.ofNat 3))

theorem slice_eq_of_content {flash : Flash} {content : UInt32 → UInt8}
    {start : UInt32} {len : Nat}
    (bytes : ∀ index < len, flash.byte (start + UInt32.ofNat index) =
      content (start + UInt32.ofNat index)) :
    flash.slice start len =
      Vector.ofFn fun index : Fin len =>
        content (start + UInt32.ofNat index) := by
  apply Vector.ext
  intro index below
  simpa [Flash.slice] using bytes index below

theorem result_readU32 {flash : Flash} {content : UInt32 → UInt8}
    {addr : UInt32} (readable : flash.Readable addr 4)
    (bytes : ∀ index < 4, flash.byte (addr + UInt32.ofNat index) =
      content (addr + UInt32.ofNat index)) :
    ((readU32 addr).run flash).result = .ok (wordOf content addr) := by
  have buffer := run_readWords_of_readable (by decide : 4 % 4 = 0) readable
  rw [slice_eq_of_content bytes] at buffer
  rw [readU32, Traced.run_bind, buffer]
  simp only [Vector.getElem_ofFn]
  rfl

/-- Whatever failed on the way, in whatever order sectors are erased and
pieces written, however often each is tried: a range whose bytes were erased
and then written reads back as it was written, as a whole and word by
word. -/
theorem written_flash_reads_back {first last : Flash} {ops : List FlashOp}
    (run : Run FlashStep first ops last) (content : UInt32 → UInt8)
    {start : UInt32} {len : Nat} (small : len ≤ 2 ^ 32)
    (written : ∀ address, InRange start len address →
      WrittenWith content ops address) :
    (len % 4 = 0 → first.Readable start len →
      ((read start .words len).run last).result =
        .ok (Vector.ofFn fun index : Fin len =>
          content (start + UInt32.ofNat index))) ∧
    ∀ addr, (∀ index < 4, InRange start len (addr + UInt32.ofNat index)) →
      first.Readable addr 4 →
      ((readU32 addr).run last).result = .ok (wordOf content addr) := by
  have readable (start : UInt32) (len : Nat) :
      last.Readable start len ↔ first.Readable start len := by
    rw [Flash.Readable, Flash.Readable, status_of_run run]
  constructor
  · intro aligned status
    have bytes : ∀ index < len, last.byte (start + UInt32.ofNat index) =
        content (start + UInt32.ofNat index) := by
      intro index below
      apply byte_of_written run
      exact written _ ((inRange_add_ofNat (by omega)).mpr below)
    rw [run_readWords_of_readable aligned ((readable _ _).mpr status),
      slice_eq_of_content bytes]
  · intro addr inside status
    apply result_readU32 ((readable _ _).mpr status)
    intro index below
    exact byte_of_written run (written _ (inside index below))

/-! ### A sample -/

namespace StandIn

/-- ROM routines that succeed, or fail before they change anything. -/
def rom (status : Int32) : FlashRom :=
  { eraseSector := fun index flash =>
      (if status = 0 then
        { flash with
          byte := fun address =>
            if InRange (index * UInt32.ofNat sectorSize) sectorSize address
            then 0xFF else flash.byte address }
      else flash, status)
    write := fun addr bytes _ flash =>
      (if status = 0 then
        { flash with
          byte := fun address =>
            match bytesAt addr bytes address with
            | some b => flash.byte address &&& b
            | none => flash.byte address }
      else flash, status) }

end StandIn

theorem sector_mul_div {sector : UInt32}
    (aligned : sector % UInt32.ofNat sectorSize = 0) :
    sector / UInt32.ofNat sectorSize * UInt32.ofNat sectorSize = sector := by
  have size : (UInt32.ofNat sectorSize).toNat = 4096 := rfl
  have multiple : sector.toNat % 4096 = 0 := by
    rw [← size, ← UInt32.toNat_mod, aligned]
    rfl
  have bound := sector.toNat_lt
  apply UInt32.toNat_inj.mp
  rw [UInt32.toNat_mul, UInt32.toNat_div, size]
  omega

theorem nor_standIn (status : Int32) : (StandIn.rom status).Nor := by
  by_cases zero : status = 0
  · subst zero
    constructor
    · intro sector flash aligned
      simp only [StandIn.rom, if_true, sector_mul_div aligned]
      exact ⟨fun _ _ inside => if_pos inside,
        fun _ outside => if_neg outside, rfl⟩
    · intro start bytes flash short
      simp only [StandIn.rom, if_true]
      refine ⟨?_, ?_, ?_, rfl⟩
      · intro _ address b target
        simp only [target]
      · intro address b target
        simp only [target, UInt8.and_self, ← UInt8.and_assoc, true_and]
      · intro address outside
        simp only [outside]
  · constructor
    · intro sector flash aligned
      simp only [StandIn.rom, zero, if_false]
      exact ⟨fun done => (zero done).elim, fun _ _ => rfl, rfl⟩
    · intro start bytes flash short
      simp only [StandIn.rom, zero, if_false]
      refine ⟨fun done => (zero done).elim, ?_, fun _ _ => rfl, rfl⟩
      intro address b target
      rw [← UInt8.and_assoc, UInt8.and_self]
      exact ⟨rfl, rfl⟩

/-- A word is written; the first try fails, and the second is done. -/
def sampleOps : List FlashOp :=
  [.erase 0x20000 (.ok ()),
    .write 0x20000 .words [0x13, 0, 0, 0] (.error (.rom 5)),
    .write 0x20000 .words [0x13, 0, 0, 0] (.ok ())]

def sampleContent (address : UInt32) : UInt8 :=
  (bytesAt 0x20000 [0x13, 0, 0, 0] address).getD 0

theorem written_sampleOps {address : UInt32}
    (inside : InRange 0x20000 4 address) :
    WrittenWith sampleContent sampleOps address := by
  have target : bytesAt 0x20000 [0x13, 0, 0, 0] address =
      some (sampleContent address) := by
    have here : bytesAt 0x20000 [0x13, 0, 0, 0] address = some _ :=
      List.getElem?_eq_getElem inside
    rw [sampleContent, here]
    rfl
  have inSector : InRange 0x20000 sectorSize address :=
    Nat.lt_of_lt_of_le inside (by decide)
  refine ⟨[], 0x20000, _, rfl, inSector, ?_, _,
    List.mem_cons_of_mem _ (List.mem_singleton.mpr rfl), ?_⟩
  · intro op member cellOp shown
    rcases List.mem_cons.mp member with rfl | member
    · exact program_of_cell_write target shown
    · rw [List.mem_singleton.mp member] at shown
      exact program_of_cell_write target shown
  · simp only [FlashOp.cell, target]
    rfl

theorem run_sampleOps :
    ∃ last, Run FlashStep Flash.erased sampleOps last := by
  have erased (flash : Flash) : FlashStep flash (.erase 0x20000 (.ok ()))
      (eraseSector (StandIn.rom 0) 0x20000 flash).1 :=
    .erase (nor_standIn 0) 0x20000 flash
  have failed (flash : Flash) : FlashStep flash
      (.write 0x20000 .words [0x13, 0, 0, 0] (.error (.rom 5)))
      (write (StandIn.rom 5) 0x20000 .words [0x13, 0, 0, 0] flash).1 :=
    .write (nor_standIn 5) 0x20000 .words (by decide) flash
  have done (flash : Flash) : FlashStep flash
      (.write 0x20000 .words [0x13, 0, 0, 0] (.ok ()))
      (write (StandIn.rom 0) 0x20000 .words [0x13, 0, 0, 0] flash).1 :=
    .write (nor_standIn 0) 0x20000 .words (by decide) flash
  exact ⟨_, .cons (erased _) (.cons (failed _) (.cons (done _) (.nil _)))⟩

theorem written_flash_reads_back_sample :
    ∃ last, Run FlashStep Flash.erased sampleOps last ∧
      ((readU32 0x20000).run last).result = .ok 0x13 := by
  obtain ⟨last, run⟩ := run_sampleOps
  have word : wordOf sampleContent 0x20000 = 0x13 := by decide
  obtain ⟨_, words⟩ := written_flash_reads_back run sampleContent
    (by decide) (fun _ inside => written_sampleOps inside)
  refine ⟨last, run, ?_⟩
  rw [words 0x20000 (by decide) rfl, word]

/-! ## Writing without an erase -/

/-- The same write, tried any number of times, one of them done. -/
structure TriedWrite (addr : UInt32) (bytes : List UInt8)
    (ops : List FlashOp) : Prop where
  tries : ∀ op ∈ ops, ∃ src result, op = .write addr src bytes result
  done : ∃ src, .write addr src bytes (.ok ()) ∈ ops

theorem FlashStep.write_ok {before after : Flash} {addr : UInt32}
    {src : Dest} {bytes : List UInt8}
    (step : FlashStep before (.write addr src bytes (.ok ())) after) :
    bytes.length % 4 = 0 ∧ bytes.length < 2 ^ 31 := by
  generalize call : FlashOp.write addr src bytes (.ok ()) = op at step
  cases step with
  | erase nor sector => cases call
  | write nor addr src short =>
      injection call with _ _ sameBytes result
      subst sameBytes
      rw [MiniBootloader.write] at result
      split at result
      · cases result
      · rename_i aligned
        exact ⟨by omega, short⟩

theorem TriedWrite.byte {first last : Flash} {ops : List FlashOp}
    {addr : UInt32} {bytes : List UInt8} (tried : TriedWrite addr bytes ops)
    (run : Run FlashStep first ops last) {address : UInt32} {b : UInt8}
    (target : bytesAt addr bytes address = some b) :
    last.byte address = first.byte address &&& b := by
  have same : ∀ cellOp ∈ ops.filterMap (FlashOp.cell address),
      ∃ done, cellOp = .program (show NorByte from b) done := by
    intro cellOp touched
    obtain ⟨op, member, shown⟩ := List.mem_filterMap.mp touched
    obtain ⟨src, result, rfl⟩ := tried.tries op member
    exact program_of_cell_write target shown
  have done : .program (show NorByte from b) true ∈
      ops.filterMap (FlashOp.cell address) := by
    obtain ⟨src, member⟩ := tried.done
    apply List.mem_filterMap.mpr ⟨_, member, _⟩
    simp only [FlashOp.cell, target]
    rfl
  exact (run_program (changes_of_run run address) same).2 done

theorem bytesAt_add_ofNat (addr : UInt32) (bytes : List UInt8)
    (index : Nat) (small : index < 2 ^ 32) :
    bytesAt addr bytes (addr + UInt32.ofNat index) = bytes[index]? := by
  have back : addr + UInt32.ofNat index - addr = UInt32.ofNat index := by
    rw [UInt32.add_comm, UInt32.add_sub_cancel]
  rw [bytesAt, back, UInt32.toNat_ofNat', Nat.mod_eq_of_lt small]

theorem holds_iff_bytesAt {flash : Flash} {start : UInt32}
    {bytes : List UInt8} (small : bytes.length ≤ 2 ^ 32) :
    flash.Holds start bytes ↔
      ∀ address b, bytesAt start bytes address = some b →
        flash.byte address = b := by
  constructor
  · intro holds address b target
    obtain ⟨below, here⟩ := List.getElem?_eq_some_iff.mp target
    have byte := byte_of_holds holds _ below
    rw [UInt32.ofNat_toNat, UInt32.add_comm, UInt32.sub_add_cancel] at byte
    rw [byte, here]
  · intro equal
    apply List.ext_getElem (by simp)
    intro index below below'
    have target := bytesAt_add_ofNat start bytes index (by omega)
    rw [List.getElem?_eq_getElem below'] at target
    simpa [Flash.slice] using equal _ _ target

/-- A write that is done in the end, after any number of failed tries, leaves
the bits that were set in both.  So it reads back as it was written exactly
when the flash still had every bit of it; else it is silently corrupted. -/
theorem write_reads_back_iff {first last : Flash} {ops : List FlashOp}
    {addr : UInt32} {bytes : List UInt8} (tried : TriedWrite addr bytes ops)
    (run : Run FlashStep first ops last)
    (readable : first.Readable addr bytes.length) :
    (∀ address b, bytesAt addr bytes address = some b →
      last.byte address = first.byte address &&& b) ∧
    (((read addr .words bytes.length).run last).result.map Vector.toList =
        .ok bytes ↔
      ∀ address b, bytesAt addr bytes address = some b →
        first.byte address &&& b = b) := by
  have masked (address : UInt32) (b : UInt8)
      (target : bytesAt addr bytes address = some b) :=
    tried.byte run target
  refine ⟨masked, ?_⟩
  obtain ⟨src, member⟩ := tried.done
  obtain ⟨past, future, split⟩ := List.append_of_mem member
  have whole := run
  rw [split] at whole
  obtain ⟨_, _, _, step, _⟩ := whole.split
  obtain ⟨aligned, short⟩ := step.write_ok
  have same : last.Readable addr bytes.length := by
    rw [Flash.Readable, status_of_run run]
    exact readable
  have small : bytes.length ≤ 2 ^ 32 := by omega
  have reads : ((read addr .words bytes.length).run last).result.map
      Vector.toList = .ok bytes ↔ last.Holds addr bytes := by
    rw [run_readWords_of_readable aligned same, Except.map, Except.ok.injEq]
    exact Iff.rfl
  rw [reads, holds_iff_bytesAt small]
  constructor
  · intro equal address b target
    rw [← masked address b target]
    exact equal address b target
  · intro set address b target
    rw [masked address b target]
    exact set address b target

/-- A bit that is already clear does not come back, here when the second try
is done. -/
theorem write_reads_back_iff_sample :
    let flash := Flash.erased.program 0x20000 [0x10, 0, 0, 0]
    let failed := write (StandIn.rom 5) 0x20000 .words [0x11, 0, 0, 0] flash
    let done := write (StandIn.rom 0) 0x20000 .words [0x11, 0, 0, 0]
      failed.1
    failed.2 = .error (.rom 5) ∧ done.2 = .ok () ∧
      done.1.byte 0x20000 = 0x10 ∧
      ((read 0x20000 .words 4).run done.1).result.map Vector.toList ≠
        .ok [0x11, 0, 0, 0] := by
  intro flash failed done
  have first : FlashStep flash
      (.write 0x20000 .words [0x11, 0, 0, 0] (.error (.rom 5))) failed.1 :=
    .write (nor_standIn 5) 0x20000 .words (by decide) flash
  have second : FlashStep failed.1
      (.write 0x20000 .words [0x11, 0, 0, 0] (.ok ())) done.1 :=
    .write (nor_standIn 0) 0x20000 .words (by decide) failed.1
  have tried : TriedWrite 0x20000 [0x11, 0, 0, 0]
      [.write 0x20000 .words [0x11, 0, 0, 0] (.error (.rom 5)),
        .write 0x20000 .words [0x11, 0, 0, 0] (.ok ())] := by
    refine ⟨?_, .words, List.mem_cons_of_mem _ List.mem_cons_self⟩
    intro op member
    rcases List.mem_cons.mp member with failing | last
    · exact ⟨_, _, failing⟩
    · exact ⟨_, _, List.mem_singleton.mp last⟩
  obtain ⟨masked, reads⟩ := write_reads_back_iff tried
    (.cons first (.cons second (.nil done.1))) rfl
  have target : bytesAt 0x20000 [0x11, 0, 0, 0] 0x20000 = some 0x11 := rfl
  refine ⟨rfl, rfl, (masked _ _ target).trans (by decide), ?_⟩
  intro equal
  exact absurd (reads.mp equal _ _ target) (by decide)

end MiniBootloader
