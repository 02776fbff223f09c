import MiniBootloader.DigestGate
import MiniBootloader.Library.Checked

/-!
# The arithmetic of the image walk

The walks as a build with overflow checks runs them: every addition on a
position or a size, the subtraction of the hash length and the cast of every
read length is checked.  On a flash of at most 2 GB that has an end, the
checks never fire, because a header that could be read bounds the position
behind it and the limit on a segment bounds the next step.
-/

namespace MiniBootloader

open Words

/-! ## The walks of a checked build -/

def checkedSizeWalk :
    Nat → UInt32 → UInt32 → FlashM (Checked AppLoadError) UInt32
  | 0, total, _ => pure total
  | remaining + 1, total, pos => do
      Checked.lengthAsI32 8
      let hdr ← (readSegmentHeader pos).mapError Checked.error
      let dataLen := hdr.2
      if dataLen > maxSegmentLen then
        Traced.throw (.error (.segmentTooLarge dataLen))
      else do
        let step ← Checked.add segmentHeaderSize dataLen
        let total ← Checked.add total step
        let step ← Checked.add segmentHeaderSize dataLen
        let pos ← Checked.add pos step
        checkedSizeWalk remaining total pos

def checkedComputeImageTotalSize (flashOffset : UInt32)
    (header : ImageHeader) : FlashM (Checked AppLoadError) UInt32 := do
  let pos ← Checked.add flashOffset imageHeaderSize
  let total ← checkedSizeWalk header.segmentCount.toNat imageHeaderSize pos
  let total ← Checked.add total 1
  let total ← Checked.add total 15
  let total := total &&& ~~~15
  if header.hashAppended then
    Checked.add total hashLen
  else
    pure total

def checkedLoadWalk :
    Nat → Nat → UInt32 → FlashM (Checked AppLoadError) Unit
  | 0, _, _ => pure ()
  | remaining + 1, i, pos => do
      Checked.lengthAsI32 8
      let hdr ← (readSegmentHeader pos).mapError Checked.error
      let loadAddr := hdr.1
      let dataLen := hdr.2
      let pos ← Checked.add pos 8
      if dataLen > maxSegmentLen then
        Traced.throw (.error (.segmentTooLarge dataLen))
      else if dataLen % 4 ≠ 0 then
        Traced.throw (.error (.unalignedSegment dataLen))
      else do
        Traced.emit (.onSegment i loadAddr dataLen)
        Checked.lengthAsI32 dataLen.toNat
        let _ ← ((read pos (.memory loadAddr) dataLen.toNat).mapError
          AppLoadError.flash).mapError Checked.error
        let pos ← Checked.add pos dataLen
        checkedLoadWalk remaining (i + 1) pos

def checkedLoadSegments (flashOffset : UInt32) (header : ImageHeader) :
    FlashM (Checked AppLoadError) Unit := do
  let pos ← Checked.add flashOffset 24
  checkedLoadWalk header.segmentCount.toNat 0 pos

def checkedHashLoop (sha : Sha256) (flashOffset : UInt32)
    (payloadLen : Nat) (hasher : sha.State) (done : Nat) :
    FlashM (Checked FlashError) sha.State :=
  if done < payloadLen then do
    let want := min chunkLen (payloadLen - done)
    let start ← Checked.add flashOffset (UInt32.ofNat done)
    Checked.lengthAsI32 want
    let slice ← (read start .words want).mapError Checked.error
    checkedHashLoop sha flashOffset payloadLen
      (sha.update hasher slice.toList) (done + want)
  else
    pure hasher
termination_by payloadLen - done
decreasing_by
  simp only [chunkLen]
  omega

def checkedVerifyPayload (sha : Sha256) (flashOffset : UInt32)
    (payloadLen : Nat) : FlashM (Checked VerifyError) Digest := do
  let hasher ← (checkedHashLoop sha flashOffset payloadLen sha.new
    0).mapError (Checked.map VerifyError.flash)
  let actualDigest := sha.finalize hasher
  let start ← Checked.add flashOffset (UInt32.ofNat payloadLen)
  Checked.lengthAsI32 32
  let expected ← ((read start .words 32).mapError
    VerifyError.flash).mapError Checked.error
  if actualDigest ≠ expected then
    Traced.throw (.error (.mismatch expected actualDigest))
  else
    pure actualDigest

def checkedVerifyAppSha256 (sha : Sha256) (flashOffset : UInt32)
    (header : ImageHeader) : FlashM (Checked VerifyError) Digest :=
  if ¬ header.hashAppended then
    Traced.throw (.error .noHash)
  else do
    let total ← (checkedComputeImageTotalSize flashOffset header).mapError
      (Checked.map VerifyError.fromAppLoadError)
    let payloadLen ← Checked.sub total hashLen
    checkedVerifyPayload sha flashOffset payloadLen.toNat

/-! ## A flash that ends -/

/-- A read that reaches past the end fails. -/
def Flash.EndsAt (flash : Flash) (capacity : Nat) : Prop :=
  ∀ (start : UInt32) (len : Nat), 0 < len → len < 2 ^ 31 →
    capacity < start.toNat + len → ¬ flash.Readable start len

theorem Flash.EndsAt.le_of_readable {flash : Flash} {capacity : Nat}
    (ends : flash.EndsAt capacity) {start : UInt32} {len : Nat}
    (readable : flash.Readable start len) (positive : 0 < len)
    (short : len < 2 ^ 31) : start.toNat + len ≤ capacity := by
  apply Nat.le_of_not_lt
  intro past
  exact ends start len positive short past readable

theorem readable_of_result_read {flash : Flash} {start : UInt32}
    {dest : Dest} {len : Nat} {bytes : Vector UInt8 len}
    (success : ((read start dest len).run flash).result = .ok bytes) :
    flash.Readable start len := by
  by_contra failed
  by_cases bad : len % 4 ≠ 0 ∨ dest.misaligned = true
  · rw [run_read_of_misaligned start bad] at success
    cases success
  · simp only [not_or, Decidable.not_not, Bool.not_eq_true] at bad
    rw [run_read_of_not_readable bad.1 bad.2 failed] at success
    cases success

theorem readable_of_result_readSegmentHeader {flash : Flash}
    {pos : UInt32} {hdr : UInt32 × UInt32}
    (success : ((readSegmentHeader pos).run flash).result = .ok hdr) :
    flash.Readable pos 8 := by
  by_contra failed
  rw [run_readSegmentHeader_of_not_readable failed] at success
  cases success

section Agreement

open Checked

variable {flash : Flash} {capacity : Nat} {off : UInt32}

/-- The invariant of the size walk: the position is at most one segment
behind the end of the flash, and the size leaves room for the segments to
go. -/
theorem agrees_sizeWalk (small : capacity ≤ 2 ^ 31)
    (ends : flash.EndsAt capacity) {count : Nat} {total pos : UInt32}
    (room : total.toNat + count * 8388616 < 2 ^ 31)
    (near : pos.toNat ≤ 2 ^ 31 + 8388608) :
    Agrees flash (checkedSizeWalk count total pos)
      (sizeWalk count total pos) := by
  induction count generalizing total pos with
  | zero => exact agrees_pure total
  | succ count ih =>
      apply Agrees.length_bind (by decide)
      apply (agrees_mapError (readSegmentHeader pos)).bind
      intro hdr headerRead
      have inside := ends.le_of_readable
        (readable_of_result_readSegmentHeader headerRead) (by decide)
        (by decide)
      dsimp only
      split
      · exact agrees_throw _
      · rename_i limit
        have length : hdr.2.toNat ≤ 8388608 :=
          UInt32.le_iff_toNat_le.mp (UInt32.not_lt.mp limit)
        have headerSize : segmentHeaderSize.toNat = 8 := rfl
        apply Agrees.add_bind (by omega)
        intro step
        apply Agrees.add_bind (by omega)
        intro totalNext
        apply Agrees.add_bind (by omega)
        intro _
        apply Agrees.add_bind (by omega)
        intro posNext
        exact ih (by omega) (by omega)

/-- The loader advances in two steps, over the header and over the data. -/
theorem agrees_loadWalk (small : capacity ≤ 2 ^ 31)
    (ends : flash.EndsAt capacity) {count index : Nat} {pos : UInt32}
    (near : pos.toNat ≤ 2 ^ 31 + 8388608) :
    Agrees flash (checkedLoadWalk count index pos)
      (loadWalk count index pos) := by
  induction count generalizing index pos with
  | zero => exact agrees_pure ()
  | succ count ih =>
      apply Agrees.length_bind (by decide)
      apply (agrees_mapError (readSegmentHeader pos)).bind
      intro hdr headerRead
      have inside := ends.le_of_readable
        (readable_of_result_readSegmentHeader headerRead) (by decide)
        (by decide)
      have headerSize : (8 : UInt32).toNat = 8 := rfl
      apply Agrees.add_bind (by omega)
      intro posData
      dsimp only
      split
      · exact agrees_throw _
      · rename_i limit
        have length : hdr.2.toNat ≤ 8388608 :=
          UInt32.le_iff_toNat_le.mp (UInt32.not_lt.mp limit)
        split
        · exact agrees_throw _
        · apply (agrees_emit _).bind
          intro _ _
          apply Agrees.length_bind (by omega)
          apply (agrees_mapError _).bind
          intro _ _
          apply Agrees.add_bind (by omega)
          intro posNext
          exact ih (by omega)

variable {header : ImageHeader}

/-- 255 segments of 8 MB and their headers stay below 2 GB. -/
theorem toNat_walked_le {total : UInt32}
    (walked : ((sizeWalk header.segmentCount.toNat imageHeaderSize
      (off + imageHeaderSize)).run flash).result = .ok total) :
    total.toNat ≤ 2139097104 := by
  have sized : ∀ segment ∈ imageSegments flash off header,
      segment.Sized flash off := sized_of_result_sizeWalk walked
  have walk : (sizeWalk header.segmentCount.toNat imageHeaderSize
      (off + imageHeaderSize)).run flash =
        ⟨(imageSegments flash off header).map (Segment.headerRead off),
          .ok (UInt32.ofNat
            (tableEnd 24 (imageSegments flash off header)))⟩ :=
    run_sizeWalk_of_sized sized
  have tableBound : tableEnd 24 (imageSegments flash off header) ≤
      24 + header.segmentCount.toNat * 8388616 :=
    tableEnd_le fun segment member => (sized segment member).2
  have countBound := header.segmentCount.toNat_lt
  rw [walk] at walked
  cases walked
  rw [UInt32.toNat_ofNat']
  omega

theorem agrees_computeImageTotalSize (small : capacity ≤ 2 ^ 31)
    (ends : flash.EndsAt capacity)
    (headerReadable : flash.Readable off 24) :
    Agrees flash (checkedComputeImageTotalSize off header)
      (computeImageTotalSize off header) := by
  have inside := ends.le_of_readable headerReadable (by decide)
    (by decide)
  have headerSize : imageHeaderSize.toNat = 24 := rfl
  have countBound := header.segmentCount.toNat_lt
  apply Agrees.add_bind (by omega)
  intro pos
  apply (agrees_sizeWalk small ends (by omega) (by omega)).bind
  intro total walked
  have bound := toNat_walked_le walked
  have one : (1 : UInt32).toNat = 1 := rfl
  have fifteen : (15 : UInt32).toNat = 15 := rfl
  apply Agrees.add_bind (by omega)
  intro withChecksum
  apply Agrees.add_bind (by omega)
  intro _
  dsimp only
  split
  · have rounded := toNat_add_and_not15 (total + 1) (by omega)
    have above := roundUp16_lt (total + 1).toNat
    have hash : hashLen.toNat = 32 := rfl
    exact agrees_add (by omega)
  · exact agrees_pure _

theorem agrees_loadSegments (small : capacity ≤ 2 ^ 31)
    (ends : flash.EndsAt capacity)
    (headerReadable : flash.Readable off 24) :
    Agrees flash (checkedLoadSegments off header)
      (loadSegments off header) := by
  have inside := ends.le_of_readable headerReadable (by decide)
    (by decide)
  have headerSize : (24 : UInt32).toNat = 24 := rfl
  apply Agrees.add_bind (by omega)
  intro pos
  exact agrees_loadWalk small ends (by omega)

/-! ## The digest check -/

variable {sha : Sha256} {payload : Nat}

private theorem toNat_chunkStart (small : capacity ≤ 2 ^ 31) {done : Nat}
    (reached : off.toNat + done ≤ capacity) :
    (UInt32.ofNat done).toNat = done ∧
      (off + UInt32.ofNat done).toNat = off.toNat + done := by
  have doneNat : (UInt32.ofNat done).toNat = done := by
    rw [UInt32.toNat_ofNat', Nat.mod_eq_of_lt (by omega)]
  refine ⟨doneNat, ?_⟩
  rw [UInt32.toNat_add, doneNat, Nat.mod_eq_of_lt (by omega)]

private theorem chunk_short (payload done : Nat) :
    min chunkLen (payload - done) < 2 ^ 31 := by
  have bound : chunkLen < 2 ^ 31 := by decide
  exact Nat.lt_of_le_of_lt (Nat.min_le_left _ _) bound

/-- A chunk that was read moves the loop on inside the flash. -/
theorem reached_next (small : capacity ≤ 2 ^ 31)
    (ends : flash.EndsAt capacity) {done : Nat}
    (reached : off.toNat + done ≤ capacity) (more : done < payload)
    (readable : flash.Readable (off + UInt32.ofNat done)
      (min chunkLen (payload - done))) :
    off.toNat + (done + min chunkLen (payload - done)) ≤ capacity := by
  have positive : 0 < min chunkLen (payload - done) :=
    Nat.lt_min.mpr ⟨by decide, Nat.sub_pos_of_lt more⟩
  have inside := ends.le_of_readable readable positive
    (chunk_short payload done)
  have start := (toNat_chunkStart small reached).2
  omega

/-- The invariant of the chunk loop: everything up to here was read. -/
theorem agrees_hashLoop (small : capacity ≤ 2 ^ 31)
    (ends : flash.EndsAt capacity) {hasher : sha.State} {done : Nat}
    (reached : off.toNat + done ≤ capacity) :
    Agrees flash (checkedHashLoop sha off payload hasher done)
      (hashLoop sha off payload hasher done) := by
  induction hasher, done using hashLoop.induct sha payload with
  | case1 hasher done more want ih =>
      rw [checkedHashLoop, hashLoop, if_pos more, if_pos more]
      have start := toNat_chunkStart small reached
      apply Agrees.add_bind (by omega)
      intro _
      apply Agrees.length_bind (chunk_short payload done)
      apply (agrees_mapError _).bind
      intro slice chunkRead
      exact ih slice (reached_next small ends reached more
        (readable_of_result_read chunkRead))
  | case2 hasher done finished =>
      rw [checkedHashLoop, hashLoop, if_neg finished, if_neg finished]
      exact agrees_pure hasher

/-- A loop that got to its end read the whole payload. -/
theorem payload_reached_of_result_hashLoop (small : capacity ≤ 2 ^ 31)
    (ends : flash.EndsAt capacity) {hasher : sha.State} {done : Nat}
    {hashed : sha.State} (reached : off.toNat + done ≤ capacity)
    (success : ((hashLoop sha off payload hasher done).run flash).result =
      .ok hashed) : off.toNat + payload ≤ capacity := by
  induction hasher, done using hashLoop.induct sha payload with
  | case1 hasher done more want ih =>
      rw [hashLoop, if_pos more] at success
      obtain ⟨slice, chunkRead, rest⟩ :=
        Traced.result_bind_eq_ok_iff.mp success
      exact ih slice (reached_next small ends reached more
        (readable_of_result_read chunkRead)) rest
  | case2 hasher done finished => omega

theorem agrees_verifyPayload (small : capacity ≤ 2 ^ 31)
    (ends : flash.EndsAt capacity) (inside : off.toNat ≤ capacity) :
    Agrees flash (checkedVerifyPayload sha off payload)
      (verifyPayload sha off payload) := by
  apply ((agrees_hashLoop small ends inside).mapError
    VerifyError.flash).bind
  intro hasher hashed
  have end' := payload_reached_of_result_hashLoop small ends inside
    (Traced.result_mapError_eq_ok_iff.mp hashed)
  have start := toNat_chunkStart small end'
  apply Agrees.add_bind (by omega)
  intro _
  apply Agrees.length_bind (by decide)
  apply (agrees_mapError _).bind
  intro expected _
  split
  · exact agrees_throw _
  · exact agrees_pure _

theorem agrees_verifyAppSha256 (small : capacity ≤ 2 ^ 31)
    (ends : flash.EndsAt capacity)
    (headerReadable : flash.Readable off 24) :
    Agrees flash (checkedVerifyAppSha256 sha off header)
      (verifyAppSha256 sha off header) := by
  have inside := ends.le_of_readable headerReadable (by decide)
    (by decide)
  rw [checkedVerifyAppSha256, verifyAppSha256]
  split
  · exact agrees_throw _
  · rename_i hashed
    apply ((agrees_computeImageTotalSize small ends headerReadable).mapError
      VerifyError.fromAppLoadError).bind
    intro total computed
    obtain ⟨sized, total_eq⟩ := result_computeImageTotalSize_eq_ok_iff.mp
      (Traced.result_mapError_eq_ok_iff.mp computed)
    have size := toNat_imageSize sized
    rw [← total_eq, if_pos (not_not.mp hashed)] at size
    have hash : hashLen.toNat = 32 := rfl
    apply Agrees.sub_bind (by omega)
    exact agrees_verifyPayload small ends (by omega)

/-- The walks of an image whose header was read do not overflow. -/
theorem walks_do_not_overflow (sha : Sha256) (small : capacity ≤ 2 ^ 31)
    (ends : flash.EndsAt capacity)
    (headerRead : ((readHeader off).run flash).result = .ok header) :
    Agrees flash (checkedComputeImageTotalSize off header)
        (computeImageTotalSize off header) ∧
      Agrees flash (checkedVerifyAppSha256 sha off header)
        (verifyAppSha256 sha off header) ∧
      Agrees flash (checkedLoadSegments off header)
        (loadSegments off header) ∧
      ∀ total,
        ((computeImageTotalSize off header).run flash).result = .ok total →
          total.toNat < 2 ^ 31 := by
  have headerReadable := (result_readHeader_eq_ok_iff.mp headerRead).1
  refine ⟨agrees_computeImageTotalSize small ends headerReadable,
    agrees_verifyAppSha256 small ends headerReadable,
    agrees_loadSegments small ends headerReadable, ?_⟩
  intro total computed
  obtain ⟨sized, rfl⟩ := result_computeImageTotalSize_eq_ok_iff.mp computed
  have bound := payloadLen_add_lt fun segment member =>
    (sized segment member).2
  rw [toNat_imageSize sized]
  split <;> omega

end Agreement

/-! ## The sample image on a flash of 16 MB -/

/-- A flash whose reads fail past its end. -/
def Flash.endedAt (flash : Flash) (capacity : Nat) : Flash :=
  { flash with
    status := fun start len =>
      if start.toNat + len.toInt.toNat ≤ capacity then
        flash.status start len
      else
        1 }

theorem endsAt_endedAt (flash : Flash) (capacity : Nat) :
    (flash.endedAt capacity).EndsAt capacity := by
  intro start len _ short past readable
  have length : (Int32.ofNat len).toInt.toNat = len := by
    rw [Int32.toInt_ofNat_of_lt short, Int.toNat_natCast]
  rw [Flash.Readable, Flash.endedAt] at readable
  simp only [length, Nat.not_le_of_lt past, if_false] at readable
  cases readable

theorem walks_do_not_overflow_sample :
    let flash := sampleFlash.endedAt 0x1000000
    ((computeImageTotalSize 0x20000 sampleHeader).run flash).result =
        .ok 80 ∧
      ((checkedComputeImageTotalSize 0x20000 sampleHeader).run
        flash).result = .ok 80 ∧
      (checkedVerifyAppSha256 sampleSha 0x20000 sampleHeader).run flash =
        ((verifyAppSha256 sampleSha 0x20000 sampleHeader).mapError
          Checked.error).run flash ∧
      (checkedLoadSegments 0x20000 sampleHeader).run flash =
        ((loadSegments 0x20000 sampleHeader).mapError
          Checked.error).run flash := by
  have headerRead : ((readHeader 0x20000).run
      (sampleFlash.endedAt 0x1000000)).result = .ok sampleHeader := by
    decide
  have computed : ((computeImageTotalSize 0x20000 sampleHeader).run
      (sampleFlash.endedAt 0x1000000)).result = .ok 80 := by decide
  obtain ⟨size, verify, load, _⟩ := walks_do_not_overflow sampleSha
    (by decide) (endsAt_endedAt sampleFlash 0x1000000) headerRead
  refine ⟨computed, ?_, verify, load⟩
  rw [size, Traced.run_mapError, computed]
  rfl

end MiniBootloader
