import MiniBootloader.Flash

/-!
# The application image readers

The three walks over an application image in flash: the header reader, the
size walk, which skips segment data, and the loader, which copies it.
Additions on positions and sizes are 32-bit and wrap, as in the release
profile.
-/

namespace MiniBootloader

open Words

def espImageHeaderMagic : UInt8 := 0xE9

structure ImageHeader where
  magic : UInt8
  segmentCount : UInt8
  entryAddr : UInt32
  chipId : UInt16
  hashAppended : Bool
  deriving DecidableEq, Repr

inductive AppLoadError where
  | flash (error : FlashError)
  | badMagic (magic : UInt8)
  | segmentTooLarge (dataLen : UInt32)
  | unalignedSegment (dataLen : UInt32)
  deriving DecidableEq, Repr

def readHeader (flashOffset : UInt32) : FlashM AppLoadError ImageHeader := do
  let bytes ← (read flashOffset .words 24).mapError AppLoadError.flash
  let magic := bytes[0]
  if magic ≠ espImageHeaderMagic then
    Traced.throw (.badMagic magic)
  else
    pure
      { magic := magic
        segmentCount := bytes[1]
        entryAddr := u32FromLeBytes bytes[4] bytes[5] bytes[6] bytes[7]
        chipId := u16FromLeBytes bytes[12] bytes[13]
        hashAppended := bytes[23] != 0 }

/-- The `[u32; 2]` segment header at `pos`: load address and data length. -/
def readSegmentHeader (pos : UInt32) :
    FlashM AppLoadError (UInt32 × UInt32) := do
  let hdr ← (read pos .words 8).mapError AppLoadError.flash
  pure
    (u32FromLeBytes hdr[0] hdr[1] hdr[2] hdr[3],
      u32FromLeBytes hdr[4] hdr[5] hdr[6] hdr[7])

def imageHeaderSize : UInt32 := 24

def segmentHeaderSize : UInt32 := 8

def maxSegmentLen : UInt32 := 0x800000

/-- The `for` loop of `compute_image_total_size`, with `remaining`
iterations to go. -/
def sizeWalk : Nat → UInt32 → UInt32 → FlashM AppLoadError UInt32
  | 0, total, _ => pure total
  | remaining + 1, total, pos => do
      let hdr ← readSegmentHeader pos
      let dataLen := hdr.2
      if dataLen > maxSegmentLen then
        Traced.throw (.segmentTooLarge dataLen)
      else
        sizeWalk remaining (total + (segmentHeaderSize + dataLen))
          (pos + (segmentHeaderSize + dataLen))

def hashLen : UInt32 := 32

def computeImageTotalSize (flashOffset : UInt32) (header : ImageHeader) :
    FlashM AppLoadError UInt32 := do
  let total ← sizeWalk header.segmentCount.toNat imageHeaderSize
    (flashOffset + imageHeaderSize)
  let total := total + 1
  let total := (total + 15) &&& ~~~15
  if header.hashAppended then
    pure (total + hashLen)
  else
    pure total

/-- The `for` loop of `load_segments` from segment `i` on, with `remaining`
iterations to go. -/
def loadWalk : Nat → Nat → UInt32 → FlashM AppLoadError Unit
  | 0, _, _ => pure ()
  | remaining + 1, i, pos => do
      let hdr ← readSegmentHeader pos
      let loadAddr := hdr.1
      let dataLen := hdr.2
      let pos := pos + 8
      if dataLen > maxSegmentLen then
        Traced.throw (.segmentTooLarge dataLen)
      else if dataLen % 4 ≠ 0 then
        Traced.throw (.unalignedSegment dataLen)
      else do
        Traced.emit (.onSegment i loadAddr dataLen)
        let _ ← (read pos (.memory loadAddr) dataLen.toNat).mapError
          AppLoadError.flash
        loadWalk remaining (i + 1) (pos + dataLen)

def loadSegments (flashOffset : UInt32) (header : ImageHeader) :
    FlashM AppLoadError Unit :=
  loadWalk header.segmentCount.toNat 0 (flashOffset + 24)

/-! ## Both walks depend on their own reads only -/

theorem local_readHeader (off : UInt32) :
    (readHeader off).Local sameAt := by
  apply (local_read off .words 24).mapError.bind
  intro bytes
  dsimp only
  split
  · exact Traced.local_throw sameAt _
  · exact Traced.local_pure sameAt _

theorem local_readSegmentHeader (pos : UInt32) :
    (readSegmentHeader pos).Local sameAt :=
  (local_read pos .words 8).mapError.bind
    fun _ => Traced.local_pure sameAt _

theorem local_sizeWalk (count : Nat) (total pos : UInt32) :
    (sizeWalk count total pos).Local sameAt := by
  induction count generalizing total pos with
  | zero => exact Traced.local_pure sameAt total
  | succ count induction =>
      apply (local_readSegmentHeader pos).bind
      intro hdr
      dsimp only
      split
      · exact Traced.local_throw sameAt _
      · exact induction _ _

theorem local_computeImageTotalSize (off : UInt32) (header : ImageHeader) :
    (computeImageTotalSize off header).Local sameAt := by
  apply (local_sizeWalk _ _ _).bind
  intro total
  dsimp only
  split <;> exact Traced.local_pure sameAt _

theorem local_loadWalk (count index : Nat) (pos : UInt32) :
    (loadWalk count index pos).Local sameAt := by
  induction count generalizing index pos with
  | zero => exact Traced.local_pure sameAt ()
  | succ count induction =>
      apply (local_readSegmentHeader pos).bind
      intro hdr
      dsimp only
      split
      · exact Traced.local_throw sameAt _
      · split
        · exact Traced.local_throw sameAt _
        · apply (Traced.local_emit sameAt _).bind
          intro _
          apply (local_read _ _ _).mapError.bind
          intro _
          exact induction _ _

/-! ## A failing read is the error of the walk -/

def appFault (flash : Flash) (event : Event) : Option AppLoadError :=
  (romFault flash event).map AppLoadError.flash

theorem reports_readSegmentHeader (pos : UInt32) :
    (readSegmentHeader pos).Reports appFault :=
  (reports_read pos .words 8).mapError.bind
    fun _ => Traced.reports_pure appFault _

theorem reports_sizeWalk (count : Nat) (total pos : UInt32) :
    (sizeWalk count total pos).Reports appFault := by
  induction count generalizing total pos with
  | zero => exact Traced.reports_pure appFault total
  | succ count induction =>
      apply (reports_readSegmentHeader pos).bind
      intro hdr
      dsimp only
      split
      · exact Traced.reports_throw appFault _
      · exact induction _ _

theorem reports_computeImageTotalSize (off : UInt32)
    (header : ImageHeader) :
    (computeImageTotalSize off header).Reports appFault := by
  apply (reports_sizeWalk _ _ _).bind
  intro total
  dsimp only
  split <;> exact Traced.reports_pure appFault _

theorem raises_readSegmentHeader (pos : UInt32) :
    (readSegmentHeader pos).Raises (· ≠ .flash .unaligned) := by
  have readRaises : ((read pos .words 8).mapError
      AppLoadError.flash).Raises (· ≠ .flash .unaligned) := by
    refine (raises_readWords pos 8 (by decide)).mapError ?_
    intro error allowed equality
    exact allowed (AppLoadError.flash.inj equality)
  exact readRaises.bind fun _ => Traced.raises_pure _ _

/-- The size walk only reads whole words, so its reads are never
misaligned. -/
theorem raises_sizeWalk (count : Nat) (total pos : UInt32) :
    (sizeWalk count total pos).Raises (· ≠ .flash .unaligned) := by
  induction count generalizing total pos with
  | zero => exact Traced.raises_pure _ total
  | succ count induction =>
      apply (raises_readSegmentHeader pos).bind
      intro hdr
      dsimp only
      split
      · apply Traced.raises_throw
        exact fun equality => AppLoadError.noConfusion equality
      · exact induction _ _

theorem raises_computeImageTotalSize (off : UInt32)
    (header : ImageHeader) :
    (computeImageTotalSize off header).Raises (· ≠ .flash .unaligned) := by
  apply (raises_sizeWalk _ _ _).bind
  intro total
  dsimp only
  split <;> exact Traced.raises_pure _ _

/-! ## Reading the image header -/

/-- The header fields at an offset, whatever the magic. -/
def Flash.header (flash : Flash) (off : UInt32) : ImageHeader :=
  let bytes := flash.slice off 24
  { magic := bytes[0]
    segmentCount := bytes[1]
    entryAddr := u32FromLeBytes bytes[4] bytes[5] bytes[6] bytes[7]
    chipId := u16FromLeBytes bytes[12] bytes[13]
    hashAppended := bytes[23] != 0 }

theorem magic_header (flash : Flash) (off : UInt32) :
    (flash.header off).magic = flash.byte off := by
  simp [Flash.header, Flash.slice]

theorem run_readHeader_of_readable {flash : Flash} {off : UInt32}
    (readable : flash.Readable off 24) :
    (readHeader off).run flash =
      ⟨[.romRead off .words 24],
        if (flash.header off).magic ≠ espImageHeaderMagic then
          .error (.badMagic (flash.header off).magic)
        else .ok (flash.header off)⟩ := by
  have bytesRead := run_readWords_of_readable (by decide) readable
  simp only [readHeader, Traced.run_bind, Traced.run_mapError, bytesRead,
    Except.mapError]
  split
  · rename_i bad
    have badMagic : (flash.header off).magic ≠ espImageHeaderMagic := bad
    rw [if_pos badMagic]
    rfl
  · rename_i good
    have goodMagic : ¬ (flash.header off).magic ≠ espImageHeaderMagic := good
    rw [if_neg goodMagic]
    rfl

theorem run_readHeader_of_not_readable {flash : Flash} {off : UInt32}
    (failed : ¬ flash.Readable off 24) :
    (readHeader off).run flash =
      ⟨[.romRead off .words 24],
        .error (.flash (.rom (flash.status off (Int32.ofNat 24))))⟩ := by
  have bytesRead := run_readWords_of_not_readable (by decide) failed
  simp only [readHeader, Traced.run_bind, Traced.run_mapError, bytesRead,
    Except.mapError]

theorem trace_readHeader (flash : Flash) (off : UInt32) :
    ((readHeader off).run flash).trace = [.romRead off .words 24] := by
  by_cases readable : flash.Readable off 24
  · rw [run_readHeader_of_readable readable]
  · rw [run_readHeader_of_not_readable readable]

theorem result_readHeader_eq_ok_iff {flash : Flash} {off : UInt32}
    {header : ImageHeader} :
    ((readHeader off).run flash).result = .ok header ↔
      flash.Readable off 24 ∧
        (flash.header off).magic = espImageHeaderMagic ∧
        header = flash.header off := by
  by_cases readable : flash.Readable off 24
  · rw [run_readHeader_of_readable readable]
    by_cases magic : (flash.header off).magic = espImageHeaderMagic
    · simp [readable, magic, eq_comm]
    · simp [magic]
  · simp [run_readHeader_of_not_readable readable, readable]

/-! ## One step of the walks -/

/-- The little-endian word at a flash address. -/
def Flash.word (flash : Flash) (pos : UInt32) : UInt32 :=
  u32FromLeBytes (flash.byte pos) (flash.byte (pos + 1))
    (flash.byte (pos + 2)) (flash.byte (pos + 3))

theorem run_readSegmentHeader_of_readable {flash : Flash} {pos : UInt32}
    (readable : flash.Readable pos 8) :
    (readSegmentHeader pos).run flash =
      ⟨[.romRead pos .words 8],
        .ok (flash.word pos, flash.word (pos + 4))⟩ := by
  have bytesRead := run_readWords_of_readable (by decide) readable
  have address (first second : UInt32) :
      pos + first + second = pos + (first + second) :=
    UInt32.add_assoc pos first second
  simp only [readSegmentHeader, Traced.run_bind, Traced.run_mapError,
    bytesRead, Except.mapError, Traced.run_pure, Flash.slice,
    Vector.getElem_ofFn, Flash.word, address]
  simp

theorem run_readSegmentHeader_of_not_readable {flash : Flash}
    {pos : UInt32} (failed : ¬ flash.Readable pos 8) :
    (readSegmentHeader pos).run flash =
      ⟨[.romRead pos .words 8],
        .error (.flash (.rom (flash.status pos (Int32.ofNat 8))))⟩ := by
  have bytesRead := run_readWords_of_not_readable (by decide) failed
  simp only [readSegmentHeader, Traced.run_bind, Traced.run_mapError,
    bytesRead, Except.mapError]

end MiniBootloader
