import Mathlib.Logic.Function.Basic
import MiniBootloader.Library.Traced
import MiniBootloader.Library.Words

/-!
# Flash reads through the ROM

A flash is its bytes together with the status the ROM reader returns for
every address and length.  Reads are reproducible: neither part changes
while the boot code reads.  Addresses are 32-bit words, as the code passes
them to the ROM; a flash smaller than the address space is one whose ROM
read fails past its end.
-/

namespace MiniBootloader

open Words

structure Flash where
  byte : UInt32 → UInt8
  /-- What `esp_rom_spiflash_read` returns for an address and an `i32`
  length; zero is success. -/
  status : UInt32 → Int32 → Int32

/-- The bytes of a range of flash, in order. -/
def Flash.slice (flash : Flash) (start : UInt32) (len : Nat) :
    Vector UInt8 len :=
  Vector.ofFn fun index : Fin len => flash.byte (start + UInt32.ofNat index)

/-- The ROM read of this range succeeds.  The length is cast to `i32`. -/
def Flash.Readable (flash : Flash) (start : UInt32) (len : Nat) : Prop :=
  flash.status start (Int32.ofNat len) = 0

instance (flash : Flash) (start : UInt32) (len : Nat) :
    Decidable (flash.Readable start len) :=
  inferInstanceAs (Decidable (_ = _))

inductive FlashError where
  /-- Length or destination is not a multiple of 4. -/
  | unaligned
  /-- The ROM returned a non-zero status. -/
  | rom (status : Int32)
  deriving DecidableEq, Repr

/-- Where a read puts its bytes: a local `[u32; N]` buffer, which its type
aligns to 4 bytes, or a raw memory address. -/
inductive Dest where
  | words
  | memory (address : UInt32)
  deriving DecidableEq, Repr

/-- `dest as usize % 4 != 0`. -/
def Dest.misaligned : Dest → Bool
  | .words => false
  | .memory address => address % 4 != 0

/-- What the boot code does to the outside: calls of the ROM reader, bytes a
successful read puts into memory, and reports of a segment to the caller of
the loader. -/
inductive Event where
  | romRead (start : UInt32) (dest : Dest) (len : Nat)
  | memWrite (address : UInt32) (data : List UInt8)
  | onSegment (index : Nat) (loadAddr dataLen : UInt32)
  deriving DecidableEq, Repr

/-- The memory writes of a successful read. -/
def writeEvents (dest : Dest) (data : List UInt8) : List Event :=
  match dest with
  | .words => []
  | .memory address => [.memWrite address data]

abbrev FlashM (ε α : Type) := Traced Flash Event ε α

/-- A run that may also change the flash. -/
structure FlashRun (ω ε α : Type) where
  flash : Flash
  events : List ω
  result : Except ε α

def sectorSize : Nat := 4096

/-- A store that may erase or program any byte of the sector at `offset`, and
leaves everything else as it is. -/
def TouchesSector {α : Type} (offset : UInt32)
    (store : Flash → Flash × α) : Prop :=
  ∀ flash, (store flash).1.status = flash.status ∧
    ∀ address, ¬ InRange offset sectorSize address →
      (store flash).1.byte address = flash.byte address

/-- The ROM routine: it returns a status, and the bytes go to `dest` when
the status is zero. -/
def espRomSpiflashRead {ε : Type} (start : UInt32) (dest : Dest)
    (len : Nat) : FlashM ε Int32 := do
  Traced.emit (.romRead start dest len)
  let r ← Traced.ask fun flash => flash.status start (Int32.ofNat len)
  if r = 0 then
    let data ← Traced.ask fun flash => (flash.slice start len).toList
    match dest with
    | .words => pure ()
    | .memory address => Traced.emit (.memWrite address data)
  pure r

/-- `flash::read`.  The returned bytes are the contents of `dest`
afterwards. -/
def read (start : UInt32) (dest : Dest) (len : Nat) :
    FlashM FlashError (Vector UInt8 len) := do
  if len % 4 ≠ 0 ∨ dest.misaligned then
    Traced.throw .unaligned
  else
    let r ← espRomSpiflashRead start dest len
    if r = 0 then
      Traced.ask fun flash => flash.slice start len
    else
      Traced.throw (.rom r)

/-! ## What one read does -/

theorem run_read_of_misaligned (start : UInt32) {dest : Dest} {len : Nat}
    (bad : len % 4 ≠ 0 ∨ dest.misaligned = true) (flash : Flash) :
    (read start dest len).run flash = ⟨[], .error .unaligned⟩ := by
  simp [read, bad]

theorem run_read_of_readable {start : UInt32} {dest : Dest} {len : Nat}
    {flash : Flash} (lenAligned : len % 4 = 0)
    (destAligned : dest.misaligned = false)
    (readable : flash.Readable start len) :
    (read start dest len).run flash =
      ⟨.romRead start dest len ::
          writeEvents dest (flash.slice start len).toList,
        .ok (flash.slice start len)⟩ := by
  unfold Flash.Readable at readable
  cases dest <;>
    simp [read, espRomSpiflashRead, Traced.run_bind, lenAligned,
      destAligned, readable, writeEvents]

theorem run_read_of_not_readable {start : UInt32} {dest : Dest} {len : Nat}
    {flash : Flash} (lenAligned : len % 4 = 0)
    (destAligned : dest.misaligned = false)
    (failed : ¬ flash.Readable start len) :
    (read start dest len).run flash =
      ⟨[.romRead start dest len],
        .error (.rom (flash.status start (Int32.ofNat len)))⟩ := by
  unfold Flash.Readable at failed
  simp [read, espRomSpiflashRead, Traced.run_bind, lenAligned,
    destAligned, failed]

theorem run_readWords_of_readable {start : UInt32} {len : Nat}
    {flash : Flash} (lenAligned : len % 4 = 0)
    (readable : flash.Readable start len) :
    (read start .words len).run flash =
      ⟨[.romRead start .words len], .ok (flash.slice start len)⟩ :=
  run_read_of_readable lenAligned rfl readable

theorem run_readWords_of_not_readable {start : UInt32} {len : Nat}
    {flash : Flash} (lenAligned : len % 4 = 0)
    (failed : ¬ flash.Readable start len) :
    (read start .words len).run flash =
      ⟨[.romRead start .words len],
        .error (.rom (flash.status start (Int32.ofNat len)))⟩ :=
  run_read_of_not_readable lenAligned rfl failed

/-- All ROM reads of a trace succeed. -/
def ReadsSucceed (flash : Flash) (trace : List Event) : Prop :=
  ∀ start dest len, Event.romRead start dest len ∈ trace →
    flash.Readable start len

/-- Every read succeeds. -/
def Flash.Intact (flash : Flash) : Prop :=
  ∀ start len, flash.status start len = 0

theorem Flash.Intact.readsSucceed {flash : Flash} (intact : flash.Intact)
    (trace : List Event) : ReadsSucceed flash trace :=
  fun start _ len _ => intact start (Int32.ofNat len)

/-- An erased flash that can be read everywhere. -/
def Flash.erased : Flash :=
  { byte := fun _ => 0xFF
    status := fun _ _ => 0 }

/-- The bytes replace those from `start` on. -/
def Flash.program (flash : Flash) (start : UInt32) (bytes : List UInt8) :
    Flash :=
  { flash with
    byte := fun address =>
      if InRange start bytes.length address then
        bytes.getD (address - start).toNat 0
      else
        flash.byte address }

theorem byte_program_of_not_inRange (flash : Flash) {start : UInt32}
    {bytes : List UInt8} {address : UInt32}
    (outside : ¬ InRange start bytes.length address) :
    (flash.program start bytes).byte address = flash.byte address :=
  if_neg outside

theorem slice_eq_of_bytes {flash flash' : Flash} {start : UInt32}
    {len : Nat}
    (bytes : ∀ index < len,
      flash'.byte (start + UInt32.ofNat index) =
        flash.byte (start + UInt32.ofNat index)) :
    flash'.slice start len = flash.slice start len := by
  apply Vector.ext
  intro index below
  simpa [Flash.slice] using bytes index below

theorem slice_program (flash : Flash) (start : UInt32) {len : Nat}
    (bytes : Vector UInt8 len) (small : len ≤ 2 ^ 32) :
    (flash.program start bytes.toList).slice start len = bytes := by
  apply Vector.ext
  intro index below
  have inside : InRange start len (start + UInt32.ofNat index) :=
    (inRange_add_ofNat (by omega)).mpr below
  have back : start + UInt32.ofNat index - start = UInt32.ofNat index := by
    rw [UInt32.add_comm, UInt32.add_sub_cancel]
  have indexNat : (UInt32.ofNat index).toNat = index := by
    rw [UInt32.toNat_ofNat', Nat.mod_eq_of_lt (by omega)]
  simp only [Flash.slice, Vector.getElem_ofFn, Flash.program,
    Vector.length_toList, inside, if_true, back, indexNat]
  simp [below]

/-- One byte replaced. -/
def Flash.patch (flash : Flash) (target : UInt32) (value : UInt8) : Flash :=
  { flash with byte := Function.update flash.byte target value }

theorem byte_patch_self (flash : Flash) (target : UInt32) (value : UInt8) :
    (flash.patch target value).byte target = value := by
  simp [Flash.patch]

theorem byte_patch_of_ne (flash : Flash) {target address : UInt32}
    (value : UInt8) (different : address ≠ target) :
    (flash.patch target value).byte address = flash.byte address := by
  simp [Flash.patch, Function.update_of_ne different]

theorem byte_patch_of_not_inRange (flash : Flash) {start target : UInt32}
    {len : Nat} (value : UInt8) (inside : InRange start len target)
    {address : UInt32} (outside : ¬ InRange start len address) :
    (flash.patch target value).byte address = flash.byte address := by
  apply byte_patch_of_ne
  rintro rfl
  exact outside inside

/-! ## Two flashes at one event -/

/-- At a ROM read two flashes are the same when the status agrees and, if
the read succeeds, so do the bytes. -/
def sameAt (left right : Flash) : Event → Prop
  | .romRead start _ len =>
      right.status start (Int32.ofNat len) =
          left.status start (Int32.ofNat len) ∧
        (left.Readable start len → right.slice start len = left.slice start len)
  | _ => True

theorem local_read (start : UInt32) (dest : Dest) (len : Nat) :
    (read start dest len).Local sameAt := by
  intro left right agree
  by_cases bad : len % 4 ≠ 0 ∨ dest.misaligned = true
  · rw [run_read_of_misaligned start bad, run_read_of_misaligned start bad]
  · simp only [not_or, Decidable.not_not, Bool.not_eq_true] at bad
    by_cases readable : left.Readable start len
    · rw [run_read_of_readable bad.1 bad.2 readable] at agree ⊢
      obtain ⟨sameStatus, sameBytes⟩ :=
        agree (.romRead start dest len) List.mem_cons_self
      have readable' : right.Readable start len := by
        unfold Flash.Readable
        rw [sameStatus]
        exact readable
      rw [run_read_of_readable bad.1 bad.2 readable', sameBytes readable]
    · rw [run_read_of_not_readable bad.1 bad.2 readable] at agree ⊢
      obtain ⟨sameStatus, _⟩ :=
        agree (.romRead start dest len) List.mem_cons_self
      have failed' : ¬ right.Readable start len := by
        unfold Flash.Readable
        rw [sameStatus]
        exact readable
      rw [run_read_of_not_readable bad.1 bad.2 failed', sameStatus]

/-- The error a failing ROM read must be turned into. -/
def romFault (flash : Flash) : Event → Option FlashError
  | .romRead start _ len =>
      if flash.Readable start len then none
      else some (.rom (flash.status start (Int32.ofNat len)))
  | _ => none

theorem reports_read (start : UInt32) (dest : Dest) (len : Nat) :
    (read start dest len).Reports romFault := by
  intro flash event member error faulty
  by_cases bad : len % 4 ≠ 0 ∨ dest.misaligned = true
  · simp [run_read_of_misaligned start bad] at member
  · simp only [not_or, Decidable.not_not, Bool.not_eq_true] at bad
    by_cases readable : flash.Readable start len
    · rw [run_read_of_readable bad.1 bad.2 readable] at member
      cases dest <;> simp [writeEvents] at member <;>
        rcases member with rfl | rfl <;> simp [romFault, readable] at faulty
    · rw [run_read_of_not_readable bad.1 bad.2 readable] at member ⊢
      simp only [List.mem_singleton] at member
      subst member
      simp only [romFault, readable, if_false, Option.some.injEq] at faulty
      rw [faulty]

/-- A read of whole words into a word buffer is never misaligned. -/
theorem raises_readWords (start : UInt32) (len : Nat)
    (lenAligned : len % 4 = 0) :
    (read start .words len).Raises (· ≠ .unaligned) := by
  intro flash error failure
  by_cases readable : flash.Readable start len
  · rw [run_readWords_of_readable lenAligned readable] at failure
    cases failure
  · rw [run_readWords_of_not_readable lenAligned readable] at failure
    cases failure
    exact fun equality => FlashError.noConfusion equality

end MiniBootloader
