import MiniBootloader.ImageReads
import MiniBootloader.WalkFailure

/-!
# The bytes the readers of an image depend on

A reader may depend on less than it reads.  The header reader depends on the
magic, and on the other fields only if the magic is accepted.  A check that
gets through depends on the whole image.  One that breaks off with an error
depends on the lengths of the segments it walked over: neither load addresses
nor payload bytes show in its error.
-/

namespace MiniBootloader

open Words

/-! ## The header -/

/-- A byte the header reader depends on. -/
def HeaderByte (flash : Flash) (off address : UInt32) : Prop :=
  flash.Readable off 24 ∧
    InRange off (if flash.byte off = espImageHeaderMagic then 24 else 1)
      address

section Header

variable {flash flash' : Flash} {off : UInt32}

/-- A byte of the header is the magic or stands behind an accepted one. -/
theorem headerByte_magic (readable : flash.Readable off 24) :
    HeaderByte flash off off := by
  refine ⟨readable, ?_⟩
  rw [InRange, UInt32.sub_self]
  split <;> decide

theorem result_readHeader_of_badMagic (readable : flash.Readable off 24)
    (bad : flash.byte off ≠ espImageHeaderMagic) :
    ((readHeader off).run flash).result =
      .error (.badMagic (flash.byte off)) := by
  rw [run_readHeader_of_readable readable, magic_header, if_pos bad]

theorem slice_eq_of_inRange {start : UInt32} {len : Nat}
    (small : len ≤ 2 ^ 32)
    (bytes : ∀ address, InRange start len address →
      flash'.byte address = flash.byte address) :
    flash'.slice start len = flash.slice start len := by
  apply slice_eq_of_bytes
  intro index below
  exact bytes _ ((inRange_add_ofNat (by omega)).mpr below)

theorem result_readHeader_congr (status : flash'.status = flash.status)
    (bytes : ∀ address, HeaderByte flash off address →
      flash'.byte address = flash.byte address) :
    ((readHeader off).run flash').result =
      ((readHeader off).run flash).result := by
  by_cases readable : flash.Readable off 24
  · have readable' : flash'.Readable off 24 := by
      rw [Flash.Readable, status]
      exact readable
    by_cases magic : flash.byte off = espImageHeaderMagic
    · have fields : flash'.header off = flash.header off := by
        rw [Flash.header, Flash.header, slice_eq_of_inRange (by decide)]
        intro address inside
        refine bytes address ⟨readable, ?_⟩
        rw [if_pos magic]
        exact inside
      rw [run_readHeader_of_readable readable,
        run_readHeader_of_readable readable', fields]
    · have first := bytes off (headerByte_magic readable)
      rw [result_readHeader_of_badMagic readable magic,
        result_readHeader_of_badMagic readable' (first ▸ magic), first]
  · have failed : ¬ flash'.Readable off 24 := by
      rw [Flash.Readable, status]
      exact readable
    rw [run_readHeader_of_not_readable readable,
      run_readHeader_of_not_readable failed, status]

/-- The reader reports the first byte unless it is the magic. -/
theorem result_readHeader_patch_magic (readable : flash.Readable off 24)
    {byte : UInt8} (bad : byte ≠ espImageHeaderMagic) :
    ((readHeader off).run (flash.patch off byte)).result =
      .error (.badMagic byte) := by
  have first := byte_patch_self flash off byte
  have readable' : (flash.patch off byte).Readable off 24 := readable
  rw [result_readHeader_of_badMagic readable' (by rw [first]; exact bad),
    first]

/-- The last byte of an accepted header shows in its hash flag. -/
theorem hashAppended_patch_flag {byte : UInt8} {header : ImageHeader}
    (accepted : ((readHeader off).run
      (flash.patch (off + 23) byte)).result = .ok header) :
    header.hashAppended = (byte != 0) := by
  obtain ⟨_, _, rfl⟩ := result_readHeader_eq_ok_iff.mp accepted
  have last : ((flash.patch (off + 23) byte).slice off 24)[23] = byte := by
    simpa [Flash.slice] using byte_patch_self flash (off + 23) byte
  rw [Flash.header, last]

end Header

/-! ## The walk over the segments -/

/-- The size walk reads the header of this segment, having got past the
segments in front of it. -/
def Walked (flash : Flash) (off : UInt32) (table : List Segment)
    (segment : Segment) : Prop :=
  ∃ before after, table = before ++ segment :: after ∧
    (∀ passed ∈ before, passed.Sized flash off) ∧
    flash.Readable (segment.headerPos off) 8

/-- The four bytes of the length behind the load address. -/
def Segment.LengthByte (off : UInt32) (segment : Segment)
    (address : UInt32) : Prop :=
  InRange (segment.headerPos off + 4) 4 address

section Walk

variable {flash flash' : Flash} {off : UInt32}

theorem Walked.cons {first segment : Segment} {table : List Segment}
    (sized : first.Sized flash off)
    (walked : Walked flash off table segment) :
    Walked flash off (first :: table) segment := by
  obtain ⟨before, after, rfl, passed, readable⟩ := walked
  exact ⟨first :: before, after, rfl,
    List.forall_mem_cons.mpr ⟨sized, passed⟩, readable⟩

/-- A word is made of its four bytes. -/
theorem word_congr {pos : UInt32}
    (bytes : ∀ address, InRange pos 4 address →
      flash'.byte address = flash.byte address) :
    flash'.word pos = flash.word pos := by
  have byte (index : UInt32) (below : index.toNat < 4) :
      flash'.byte (pos + index) = flash.byte (pos + index) := by
    apply bytes
    rw [InRange, UInt32.add_comm, UInt32.add_sub_cancel]
    exact below
  have first := byte 0 (by decide)
  rw [UInt32.add_zero] at first
  rw [Flash.word, Flash.word, first, byte 1 (by decide),
    byte 2 (by decide), byte 3 (by decide)]

theorem dataLen_congr {rel : Nat}
    (bytes : ∀ address, (segmentAt flash off rel).LengthByte off address →
      flash'.byte address = flash.byte address) :
    (segmentAt flash' off rel).dataLen = (segmentAt flash off rel).dataLen :=
  word_congr bytes

theorem sized_congr {rel : Nat} (status : flash'.status = flash.status)
    (length : (segmentAt flash' off rel).dataLen =
      (segmentAt flash off rel).dataLen) :
    (segmentAt flash' off rel).Sized flash' off ↔
      (segmentAt flash off rel).Sized flash off := by
  rw [Segment.Sized, Segment.Sized, Flash.Readable, Flash.Readable, status,
    length]
  rfl

/-- The lengths alone decide how the size walk ends. -/
theorem result_sizeWalk_congr {count rel : Nat} {total : UInt32}
    (status : flash'.status = flash.status)
    (lengths : ∀ segment,
      Walked flash off (segmentTable flash off count rel) segment →
      ∀ address, segment.LengthByte off address →
        flash'.byte address = flash.byte address) :
    ((sizeWalk count total (off + UInt32.ofNat rel)).run flash').result =
      ((sizeWalk count total (off + UInt32.ofNat rel)).run
        flash).result := by
  induction count generalizing rel total with
  | zero => rfl
  | succ count induction =>
      by_cases readable : flash.Readable
          ((segmentAt flash off rel).headerPos off) 8
      · have first : Walked flash off
            (segmentTable flash off (count + 1) rel)
            (segmentAt flash off rel) :=
          ⟨[], _, rfl, List.forall_mem_nil _, readable⟩
        have length := dataLen_congr (lengths _ first)
        have extent : (segmentAt flash' off rel).extent =
            (segmentAt flash off rel).extent := by
          rw [Segment.extent, Segment.extent, length]
        have sizedIff := sized_congr status length
        by_cases sized : (segmentAt flash off rel).Sized flash off
        · rw [run_sizeWalk_cons_of_sized sized,
            run_sizeWalk_cons_of_sized (sizedIff.mpr sized), length, extent]
          apply induction
          intro segment walked
          exact lengths segment (walked.cons sized)
        · have large : (segmentAt flash off rel).dataLen >
              maxSegmentLen := by
            apply UInt32.not_le.mp
            intro small
            exact sized ⟨readable, small⟩
          have readable' : flash'.Readable
              ((segmentAt flash' off rel).headerPos off) 8 := by
            rw [Flash.Readable, status]
            exact readable
          rw [run_sizeWalk_cons_of_fails (.tooLarge readable large),
            run_sizeWalk_cons_of_fails
              (.tooLarge readable' (length ▸ large)), length]
      · have failed : ¬ flash'.Readable
            ((segmentAt flash' off rel).headerPos off) 8 := by
          rw [Flash.Readable, status]
          exact readable
        rw [run_sizeWalk_cons_of_fails (.header readable),
          run_sizeWalk_cons_of_fails (.header failed), status]
        rfl

theorem result_computeImageTotalSize_congr {header : ImageHeader}
    (status : flash'.status = flash.status)
    (lengths : ∀ segment,
      Walked flash off (imageSegments flash off header) segment →
      ∀ address, segment.LengthByte off address →
        flash'.byte address = flash.byte address) :
    ((computeImageTotalSize off header).run flash').result =
      ((computeImageTotalSize off header).run flash).result := by
  have walk : ((sizeWalk header.segmentCount.toNat imageHeaderSize
      (off + imageHeaderSize)).run flash').result =
        ((sizeWalk header.segmentCount.toNat imageHeaderSize
          (off + imageHeaderSize)).run flash).result :=
    result_sizeWalk_congr status lengths
  cases walked : ((sizeWalk header.segmentCount.toNat imageHeaderSize
      (off + imageHeaderSize)).run flash).result with
  | error error =>
      rw [computeImageTotalSize, Traced.run_bind_of_error walked,
        Traced.run_bind_of_error (walk.trans walked)]
  | ok total =>
      rw [computeImageTotalSize, Traced.run_bind_of_ok walked,
        Traced.run_bind_of_ok (walk.trans walked)]
      dsimp only
      split <;> rfl

theorem dataLen_of_mem {count rel : Nat} {segment : Segment}
    (member : segment ∈ segmentTable flash off count rel) :
    segment.dataLen = flash.word (segment.headerPos off + 4) := by
  induction count generalizing rel with
  | zero => cases member
  | succ count induction =>
      rcases List.mem_cons.mp member with rfl | later
      · rfl
      · exact induction later

/-- The walk refuses the length of a segment it does not get past. -/
theorem Walked.refused {count rel : Nat} {segment : Segment}
    (walked : Walked flash off (segmentTable flash off count rel) segment)
    (notSized : ¬ segment.Sized flash off) :
    flash.word (segment.headerPos off + 4) > maxSegmentLen := by
  obtain ⟨before, after, table, _, readable⟩ := walked
  have member : segment ∈ segmentTable flash off count rel := by
    rw [table]
    exact List.mem_append_right _ List.mem_cons_self
  rw [← dataLen_of_mem member]
  apply UInt32.not_le.mp
  intro small
  exact notSized ⟨readable, small⟩

theorem toNat_word (flash : Flash) (pos : UInt32) :
    (flash.word pos).toNat = (flash.byte pos).toNat +
      (flash.byte (pos + 1)).toNat * 256 +
      (flash.byte (pos + 2)).toNat * 65536 +
      (flash.byte (pos + 3)).toNat * 16777216 := by
  have b0 := (flash.byte pos).toNat_lt
  have b1 := (flash.byte (pos + 1)).toNat_lt
  have b2 := (flash.byte (pos + 2)).toNat_lt
  have b3 := (flash.byte (pos + 3)).toNat_lt
  simp only [Flash.word, u32FromLeBytes, UInt32.toNat_ofNat']
  omega

/-- A word after one of its bytes is replaced. -/
theorem toNat_word_patch (flash : Flash) (pos : UInt32) (byte : UInt8)
    {index : Nat} (below : index < 4) :
    ((flash.patch (pos + UInt32.ofNat index) byte).word pos).toNat =
      (flash.word pos).toNat / 256 ^ (index + 1) * 256 ^ (index + 1) +
        byte.toNat * 256 ^ index + (flash.word pos).toNat % 256 ^ index := by
  have patched (other : UInt32) :
      (flash.patch (pos + UInt32.ofNat index) byte).byte (pos + other) =
        if other = UInt32.ofNat index then byte
        else flash.byte (pos + other) := by
    split
    · rename_i same
      rw [same, byte_patch_self]
    · rename_i different
      exact byte_patch_of_ne flash byte fun same =>
        different ((UInt32.add_right_inj _).mp same)
  have first := patched 0
  rw [UInt32.add_zero] at first
  have b0 := (flash.byte pos).toNat_lt
  have b1 := (flash.byte (pos + 1)).toNat_lt
  have b2 := (flash.byte (pos + 2)).toNat_lt
  have b3 := (flash.byte (pos + 3)).toNat_lt
  have b := byte.toNat_lt
  rw [toNat_word, toNat_word, first, patched 1, patched 2, patched 3]
  match index, below with
  | 0, _ | 1, _ | 2, _ | 3, _ =>
      simp
      omega

/-- One of the two high bytes alone may make a length too large. -/
theorem word_patch_gt (flash : Flash) (pos : UInt32) {byte : UInt8}
    (top : 0x80 < byte) {index : Nat} (high : 2 ≤ index)
    (below : index < 4) :
    (flash.patch (pos + UInt32.ofNat index) byte).word pos >
      maxSegmentLen := by
  apply UInt32.lt_iff_toNat_lt.mpr
  rw [toNat_word_patch flash pos byte below]
  have bound := UInt8.lt_iff_toNat_lt.mp top
  have weight : 256 ^ 2 ≤ 256 ^ index := Nat.pow_le_pow_right (by decide) high
  have product : 129 * 256 ^ 2 ≤ byte.toNat * 256 ^ index :=
    Nat.mul_le_mul bound weight
  simp only [maxSegmentLen, UInt32.reduceToNat]
  omega

/-- The low byte of a length that is too large does not make it pass, unless
it is zero. -/
theorem word_patch_gt_of_gt {pos : UInt32}
    (refused : flash.word pos > maxSegmentLen) {byte : UInt8}
    (positive : 0 < byte) :
    (flash.patch (pos + UInt32.ofNat 0) byte).word pos > maxSegmentLen := by
  apply UInt32.lt_iff_toNat_lt.mpr
  rw [toNat_word_patch flash pos byte (by decide)]
  have large := UInt32.lt_iff_toNat_lt.mp refused
  have bound := UInt8.lt_iff_toNat_lt.mp positive
  simp only [maxSegmentLen, UInt32.reduceToNat, UInt8.reduceToNat]
    at large bound ⊢
  omega

theorem word_patch_inj {pos : UInt32} {index : Nat} (below : index < 4)
    {byte byte' : UInt8}
    (same : (flash.patch (pos + UInt32.ofNat index) byte).word pos =
      (flash.patch (pos + UInt32.ofNat index) byte').word pos) :
    byte = byte' := by
  have numbers := congrArg UInt32.toNat same
  rw [toNat_word_patch flash pos byte below,
    toNat_word_patch flash pos byte' below] at numbers
  have products : byte.toNat * 256 ^ index = byte'.toNat * 256 ^ index := by
    omega
  exact UInt8.toNat_inj.mp
    (Nat.mul_right_cancel (Nat.pow_pos (by decide)) products)

/-- A byte behind the header of a segment is not in its length. -/
theorem dataLen_patch_behind {rel behind : Nat} (after : rel + 8 ≤ behind)
    (small : behind < 2 ^ 32) (byte : UInt8) :
    (segmentAt (flash.patch (off + UInt32.ofNat behind) byte) off
        rel).dataLen = (segmentAt flash off rel).dataLen := by
  apply dataLen_congr
  intro address inside
  apply byte_patch_of_ne
  rintro rfl
  have four : off + UInt32.ofNat rel + 4 = off + UInt32.ofNat (rel + 4) :=
    add_ofNat_add_ofNat off rel 4
  have distance : off + UInt32.ofNat behind =
      off + UInt32.ofNat (rel + 4) + UInt32.ofNat (behind - (rel + 4)) := by
    rw [add_ofNat_add_ofNat]
    congr 2
    omega
  rw [Segment.LengthByte, Segment.headerPos, segmentAt, four, distance,
    inRange_add_ofNat (by omega)] at inside
  omega

/-- The segments in front of a walked one are short. -/
theorem rel_le_of_sized {count rel : Nat} {before after : List Segment}
    {segment : Segment}
    (table : segmentTable flash off count rel =
      before ++ segment :: after)
    (sized : ∀ passed ∈ before, passed.Sized flash off) :
    segment.rel ≤ rel + before.length * 8388616 := by
  induction before generalizing count rel with
  | nil =>
      obtain ⟨_, _, rfl, _⟩ := segmentTable_eq_cons table
      exact Nat.le_add_right rel _
  | cons first before induction =>
      obtain ⟨fewer, rfl, rfl, tail⟩ := segmentTable_eq_cons table
      rw [List.forall_mem_cons] at sized
      have later := induction tail sized.2
      have small : (segmentAt flash off rel).dataLen.toNat ≤ 8388608 :=
        UInt32.le_iff_toNat_le.mp sized.1.2
      simp only [Segment.extent, List.length_cons] at later ⊢
      omega

/-- A walked segment ends the walk if a byte put into its length makes the
length too large. -/
theorem result_sizeWalk_patch {count rel : Nat} {total target : UInt32}
    {before after : List Segment} {segment : Segment} {byte : UInt8}
    (table : segmentTable flash off count rel =
      before ++ segment :: after)
    (sized : ∀ passed ∈ before, passed.Sized flash off)
    (readable : flash.Readable (segment.headerPos off) 8)
    (small : segment.rel + 7 < 2 ^ 32)
    (inside : segment.LengthByte off target)
    (large : (flash.patch target byte).word (segment.headerPos off + 4) >
      maxSegmentLen) :
    ((sizeWalk count total (off + UInt32.ofNat rel)).run
        (flash.patch target byte)).result =
      .error (.segmentTooLarge
        ((flash.patch target byte).word (segment.headerPos off + 4))) := by
  induction before generalizing count rel total with
  | nil =>
      obtain ⟨fewer, rfl, rfl, _⟩ := segmentTable_eq_cons table
      have readable' : (flash.patch target byte).Readable ((segmentAt
          (flash.patch target byte) off rel).headerPos off) 8 := readable
      rw [run_sizeWalk_cons_of_fails (.tooLarge readable' large)]
      rfl
  | cons first before induction =>
      obtain ⟨fewer, rfl, rfl, tail⟩ := segmentTable_eq_cons table
      rw [List.forall_mem_cons] at sized
      have member : segment ∈ segmentTable flash off fewer
          (rel + (segmentAt flash off rel).extent) := by
        rw [tail]
        exact List.mem_append_right _ List.mem_cons_self
      have later := (segment_within_table member).1
      obtain ⟨index, below, rfl⟩ := (inRange_iff_exists (by decide)).mp inside
      have behind : segment.headerPos off + 4 + UInt32.ofNat index =
          off + UInt32.ofNat (segment.rel + 4 + index) := by
        rw [← add_ofNat_add_ofNat, ← add_ofNat_add_ofNat]
        rfl
      have length : (segmentAt (flash.patch (segment.headerPos off + 4 +
          UInt32.ofNat index) byte) off rel).dataLen =
            (segmentAt flash off rel).dataLen := by
        rw [behind]
        simp only [Segment.extent] at later
        exact dataLen_patch_behind (by omega) (by omega) byte
      have extent : (segmentAt (flash.patch (segment.headerPos off + 4 +
          UInt32.ofNat index) byte) off rel).extent =
            (segmentAt flash off rel).extent := by
        rw [Segment.extent, Segment.extent, length]
      have status : (flash.patch (segment.headerPos off + 4 +
          UInt32.ofNat index) byte).status = flash.status := rfl
      have sized' := (sized_congr status length).mpr sized.1
      rw [run_sizeWalk_cons_of_sized sized', extent]
      exact induction tail sized.2

end Walk

/-! ## The check -/

/-- Every length passes and every read succeeds, so the check ends with the
comparison of the digests. -/
def CheckCompletes (flash : Flash) (off : UInt32) (header : ImageHeader) :
    Prop :=
  (∀ segment ∈ imageSegments flash off header, segment.Sized flash off) ∧
    ReadsSucceed flash (checkReads flash off header)

/-- A byte that the check of an image with a declared hash depends on. -/
inductive CheckByte (flash : Flash) (off : UInt32) (header : ImageHeader)
    (address : UInt32) : Prop where
  | image :
      header.hashAppended = true →
      CheckCompletes flash off header →
      InRange off (payloadLen flash off header + 32) address →
      CheckByte flash off header address
  | length {segment : Segment} :
      header.hashAppended = true →
      ¬ CheckCompletes flash off header →
      Walked flash off (imageSegments flash off header) segment →
      segment.LengthByte off address →
      CheckByte flash off header address

section Check

variable {sha : Sha256} {flash flash' : Flash} {off : UInt32}
  {header : ImageHeader}

theorem sameAt_of_bytes {len : Nat} (small : len ≤ 2 ^ 32)
    (status : flash'.status = flash.status)
    (bytes : ∀ address, InRange off len address →
      flash'.byte address = flash.byte address)
    {trace : List Event} (within : ReadsWithin off len trace) :
    ∀ event ∈ trace, sameAt flash flash' event := by
  intro event member
  cases event with
  | romRead start dest size =>
      refine ⟨by rw [status], fun _ => ?_⟩
      apply slice_eq_of_bytes
      intro index below
      exact bytes _ (within.inRange small member below)
  | memWrite address data => trivial
  | onSegment index loadAddr dataLen => trivial

theorem run_verifyAppSha256_of_completes (hashed : header.hashAppended = true)
    (completes : CheckCompletes flash off header) :
    (verifyAppSha256 sha off header).run flash =
      let actual :=
        chunkedDigest sha flash off (payloadLen flash off header)
      let expected := appended flash off header
      ⟨checkReads flash off header,
        if actual = expected then .ok actual
        else .error (.mismatch expected actual)⟩ := by
  obtain ⟨sized, succeed⟩ := completes
  have aligned := payloadLen_mod flash off header
  have chunks : ∀ k < chunkCount (payloadLen flash off header),
      ChunkReadable flash off (payloadLen flash off header) k := by
    intro k below
    apply succeed _ .words
    apply List.mem_append_right
    apply List.mem_append_left
    exact List.mem_map.mpr ⟨_, List.mem_map.mpr
      ⟨k, List.mem_range.mpr below, rfl⟩, rfl⟩
  have last : flash.Readable
      (off + UInt32.ofNat (payloadLen flash off header)) 32 := by
    apply succeed _ .words
    apply List.mem_append_right
    apply List.mem_append_right
    exact List.mem_singleton_self _
  rw [run_verifyAppSha256_of_sized hashed sized,
    run_verifyPayload_of_readable aligned chunks last]
  rfl

theorem imageLen_le (sized : ∀ segment ∈ imageSegments flash off header,
      segment.Sized flash off) :
    payloadLen flash off header + 32 ≤ 2 ^ 32 := by
  have bound := payloadLen_add_lt
    fun segment member => (sized segment member).2
  omega

/-! ### What the loop does without its bytes -/

/-- Two loops over flashes with the same status get equally far. -/
theorem hashLoop_congr (off : UInt32) (len : Nat)
    (status : flash'.status = flash.status)
    (hasher hasher' : sha.State) (done : Nat) :
    (∃ error,
        ((hashLoop sha off len hasher done).run flash).result =
          .error error ∧
        ((hashLoop sha off len hasher' done).run flash').result =
          .error error) ∨
      ∃ last last',
        ((hashLoop sha off len hasher done).run flash).result = .ok last ∧
        ((hashLoop sha off len hasher' done).run flash').result =
          .ok last' := by
  induction hasher, done using hashLoop.induct sha len generalizing hasher'
    with
  | case1 hasher done more want induction =>
      rw [hashLoop, if_pos more, hashLoop, if_pos more]
      by_cases aligned : want % 4 = 0
      · by_cases readable : flash.Readable (off + UInt32.ofNat done) want
        · have readable' : flash'.Readable (off + UInt32.ofNat done)
              want := by
            rw [Flash.Readable, status]
            exact readable
          have here := run_readWords_of_readable aligned readable
          have here' := run_readWords_of_readable aligned readable'
          rw [Traced.run_bind_of_ok (congrArg Outcome.result here),
            Traced.run_bind_of_ok (congrArg Outcome.result here')]
          exact induction _ _
        · have failed : ¬ flash'.Readable (off + UInt32.ofNat done)
              want := by
            rw [Flash.Readable, status]
            exact readable
          have here := run_readWords_of_not_readable aligned readable
          have here' := run_readWords_of_not_readable aligned failed
          rw [Traced.run_bind_of_error (congrArg Outcome.result here),
            Traced.run_bind_of_error (congrArg Outcome.result here'), status]
          exact .inl ⟨_, rfl, rfl⟩
      · have here : (read (off + UInt32.ofNat done) .words want).run
            flash = _ := run_read_of_misaligned _ (.inl aligned) flash
        have here' : (read (off + UInt32.ofNat done) .words want).run
            flash' = _ := run_read_of_misaligned _ (.inl aligned) flash'
        rw [Traced.run_bind_of_error (congrArg Outcome.result here),
          Traced.run_bind_of_error (congrArg Outcome.result here')]
        exact .inl ⟨_, rfl, rfl⟩
  | case2 hasher done reached =>
      rw [hashLoop, if_neg reached, hashLoop, if_neg reached]
      exact .inr ⟨hasher, hasher', rfl, rfl⟩

/-- A loop that ends has read every chunk. -/
theorem chunks_readable_of_result {len : Nat} (aligned : len % 16 = 0)
    {hasher : sha.State}
    (ended : ((hashLoop sha off len sha.new 0).run flash).result =
      .ok hasher) :
    ∀ k < chunkCount len, ChunkReadable flash off len k := by
  apply chunks_readable_of_reads_succeed aligned
  intro start dest size member
  by_cases readable : flash.Readable start size
  · exact readable
  · have failure := reports_hashLoop sha off len sha.new 0 flash _ member
      (.rom (flash.status start (Int32.ofNat size)))
      (by simp [romFault, readable])
    rw [ended] at failure
    cases failure

theorem checkCompletes_of_readable
    (sized : ∀ segment ∈ imageSegments flash off header,
      segment.Sized flash off)
    (chunks : ∀ k < chunkCount (payloadLen flash off header),
      ChunkReadable flash off (payloadLen flash off header) k)
    (last : flash.Readable
      (off + UInt32.ofNat (payloadLen flash off header)) 32) :
    CheckCompletes flash off header := by
  refine ⟨sized, ?_⟩
  intro start dest size member
  rcases List.mem_append.mp member with walked | later
  · obtain ⟨segment, inTable, equality⟩ := List.mem_map.mp walked
    cases equality
    exact (sized segment inTable).1
  · rcases List.mem_append.mp later with chunk | digest
    · obtain ⟨span, inSpans, equality⟩ := List.mem_map.mp chunk
      obtain ⟨k, below, rfl⟩ := List.mem_map.mp inSpans
      cases equality
      exact chunks k (List.mem_range.mp below)
    · cases List.mem_singleton.mp digest
      exact last

/-- A check that breaks off behind the size walk breaks off the same way on
every flash with the same status. -/
theorem result_verifyPayload_congr (sha : Sha256)
    (status : flash'.status = flash.status)
    (sized : ∀ segment ∈ imageSegments flash off header,
      segment.Sized flash off)
    (breaks : ¬ CheckCompletes flash off header) :
    ((verifyPayload sha off (payloadLen flash off header)).run
        flash').result =
      ((verifyPayload sha off (payloadLen flash off header)).run
        flash).result := by
  have aligned := payloadLen_mod flash off header
  rcases hashLoop_congr off (payloadLen flash off header) status sha.new
      sha.new 0 with
    ⟨error, failed, failed'⟩ | ⟨hasher, hasher', ended, ended'⟩
  · simp only [verifyPayload, Traced.run_bind, Traced.run_mapError, failed,
      failed', Except.mapError]
  · have failed : ¬ flash.Readable
        (off + UInt32.ofNat (payloadLen flash off header)) 32 := by
      intro last
      exact breaks (checkCompletes_of_readable sized
        (chunks_readable_of_result aligned ended) last)
    have failed' : ¬ flash'.Readable
        (off + UInt32.ofNat (payloadLen flash off header)) 32 := by
      rw [Flash.Readable, status]
      exact failed
    have read := run_readWords_of_not_readable (by decide) failed
    have read' := run_readWords_of_not_readable (by decide) failed'
    simp only [verifyPayload, Traced.run_bind, Traced.run_mapError, ended,
      ended', read, read', Except.mapError, status]

/-- The bytes a check depends on decide its result. -/
theorem result_verifyAppSha256_congr (status : flash'.status = flash.status)
    (bytes : ∀ address, CheckByte flash off header address →
      flash'.byte address = flash.byte address) :
    ((verifyAppSha256 sha off header).run flash').result =
      ((verifyAppSha256 sha off header).run flash).result := by
  by_cases hashed : header.hashAppended = true
  · by_cases completes : CheckCompletes flash off header
    · have same := local_verifyAppSha256 sha off header flash flash'
      rw [same]
      rw [run_verifyAppSha256_of_completes hashed completes]
      apply sameAt_of_bytes (imageLen_le completes.1) status
      · intro address inside
        exact bytes address (.image hashed completes inside)
      · exact readsWithin_checkReads flash off header
    · have size := result_computeImageTotalSize_congr status
        fun segment walked address inside =>
          bytes address (.length hashed completes walked inside)
      cases sizeResult : ((computeImageTotalSize off header).run
          flash).result with
      | error error =>
          simp only [verifyAppSha256, hashed, not_true_eq_false, if_false,
            Traced.run_bind, Traced.run_mapError, size, sizeResult,
            Except.mapError]
      | ok total =>
          obtain ⟨sized, total_eq⟩ :=
            result_computeImageTotalSize_eq_ok_iff.mp sizeResult
          rw [if_pos hashed] at total_eq
          have length := toNat_total_sub_hashLen
            fun segment member => (sized segment member).2
          have payload := result_verifyPayload_congr sha status sized
            completes
          simp only [verifyAppSha256, hashed, not_true_eq_false, if_false,
            Traced.run_bind, Traced.run_mapError, size, sizeResult,
            Except.mapError, total_eq, length, payload]
  · rw [verifyAppSha256, if_pos hashed]
    rfl

/-! ### What the check tells -/

/-- Slices with the same bytes are taken from flashes that agree. -/
theorem byte_eq_of_slice {start : UInt32} {len : Nat}
    (same : (flash'.slice start len).toList =
      (flash.slice start len).toList) {index : Nat} (below : index < len) :
    flash'.byte (start + UInt32.ofNat index) =
      flash.byte (start + UInt32.ofNat index) := by
  rw [toList_slice, toList_slice] at same
  exact List.map_inj_left.mp same index (List.mem_range.mpr below)

/-- A hash function under which only the one payload has its digest. -/
def onlyDigest (payload : List UInt8) (expected : Digest)
    (bytes : List UInt8) : Digest :=
  if bytes = payload then expected else expected.map (· + 1)

theorem onlyDigest_eq_iff {payload bytes : List UInt8} {expected : Digest} :
    onlyDigest payload expected bytes = expected ↔ bytes = payload := by
  unfold onlyDigest
  constructor
  · intro same
    by_cases equal : bytes = payload
    · exact equal
    · rw [if_neg equal] at same
      have first := congrArg (fun digest => digest[0].toNat) same
      have bound := expected[0].toNat_lt
      simp only [Vector.getElem_map, UInt8.toNat_add,
        UInt8.reduceToNat] at first
      omega
  · intro equal
    exact if_pos equal

/-- A check that completes tells every byte of the image: there is a hash
function for which a flash with the same result has the same image. -/
theorem same_image_of_verified (hashed : header.hashAppended = true)
    (completes : CheckCompletes flash off header)
    (same : ∀ sha, ((verifyAppSha256 sha off header).run flash').result =
      ((verifyAppSha256 sha off header).run flash).result)
    {address : UInt32}
    (inside : InRange off (payloadLen flash off header + 32) address) :
    flash'.byte address = flash.byte address := by
  generalize payloadIs : (flash.slice off
    (payloadLen flash off header)).toList = payload
  generalize digestIs : appended flash off header = expected
  have streams := Sha256.streams_buffered (onlyDigest payload expected)
  have before : ((verifyAppSha256 (Sha256.buffered
      (onlyDigest payload expected)) off header).run flash).result =
        .ok expected := by
    have good : onlyDigest payload expected payload = expected := if_pos rfl
    rw [run_verifyAppSha256_of_completes hashed completes,
      chunkedDigest_eq streams, payloadIs, digestIs]
    simp only [good, if_true]
  have accepted := (same _).trans before
  have verified := verified_of_result accepted
  have digests := verified.digest
  rw [run_verifyAppSha256 hashed verified.sized (by
    rw [verified.trace]
    exact verified.succeed)] at accepted
  simp only [digests, if_true, Except.ok.injEq] at accepted
  rw [chunkedDigest_eq streams, accepted, onlyDigest_eq_iff,
    ← payloadIs] at digests
  have lengths : payloadLen flash' off header =
      payloadLen flash off header := by
    simpa using congrArg List.length digests
  rw [lengths] at digests
  rw [appended, lengths, ← digestIs, appended] at accepted
  obtain ⟨index, below, rfl⟩ :=
    (inRange_iff_exists (imageLen_le completes.1)).mp inside
  by_cases inPayload : index < payloadLen flash off header
  · exact byte_eq_of_slice digests inPayload
  · have inDigest := byte_eq_of_slice (congrArg Vector.toList accepted)
      (by omega : index - payloadLen flash off header < 32)
    rw [add_ofNat_add_ofNat, Nat.add_sub_cancel' (by omega)] at inDigest
    exact inDigest

/-- A walked segment ends the check if a byte put into its length makes the
length too large. -/
theorem result_verifyAppSha256_patch (hashed : header.hashAppended = true)
    {segment : Segment} {target : UInt32} {byte : UInt8}
    (walked : Walked flash off (imageSegments flash off header) segment)
    (inside : segment.LengthByte off target)
    (large : (flash.patch target byte).word (segment.headerPos off + 4) >
      maxSegmentLen) :
    ((verifyAppSha256 sha off header).run (flash.patch target byte)).result =
      .error (.totalSize (.segmentTooLarge
        ((flash.patch target byte).word (segment.headerPos off + 4)))) := by
  obtain ⟨before, after, table, sized, readable⟩ := walked
  have small : segment.rel + 7 < 2 ^ 32 := by
    have bound := rel_le_of_sized table sized
    have count := congrArg List.length table
    have countBound := header.segmentCount.toNat_lt
    rw [imageSegments, length_segmentTable, List.length_append] at count
    omega
  have walk : ((sizeWalk header.segmentCount.toNat imageHeaderSize
      (off + imageHeaderSize)).run (flash.patch target byte)).result = _ :=
    result_sizeWalk_patch table sized readable small inside large
  have size : ((computeImageTotalSize off header).run
      (flash.patch target byte)).result = _ :=
    congrArg Outcome.result (Traced.run_bind_of_error walk)
  simp only [verifyAppSha256, hashed, not_true_eq_false, if_false,
    Traced.run_bind, Traced.run_mapError, size, Except.mapError,
    VerifyError.fromAppLoadError]

end Check

end MiniBootloader
