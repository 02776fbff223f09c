import MiniBootloader.ImageReads

/-!
# Decoding undoes the image format

The encoder writes the layout of the module documentation of `app.rs`; the
four readers are independent of it and of each other.  Both sides meet in
the segment table: on a flash that holds an encoding, the table of `n`
segments is the list of encoded segments with their positions, by induction
on the list.
-/

namespace MiniBootloader

open Words

/-! ## The encoder -/

/-- A segment that an image may contain. -/
structure SegmentImage where
  loadAddr : UInt32
  data : List UInt8
  addrAligned : loadAddr % 4 = 0
  lenAligned : data.length % 4 = 0
  small : data.length ≤ 0x800000

/-- What an image declares. -/
structure AppImage where
  entryAddr : UInt32
  chipId : UInt16
  /-- The byte at 23; a digest is appended when it is not zero. -/
  flag : UInt8
  /-- The header bytes that nobody interprets, by position. -/
  fill : Nat → UInt8
  segments : List SegmentImage
  count : segments.length ≤ 255

namespace SegmentImage

def dataLen (segment : SegmentImage) : UInt32 :=
  UInt32.ofNat segment.data.length

def encode (segment : SegmentImage) : List UInt8 :=
  u32ToLeBytes segment.loadAddr ++ u32ToLeBytes segment.dataLen ++
    segment.data

/-- The segment the readers see, `rel` bytes into the image. -/
def located (rel : Nat) (segment : SegmentImage) : Segment :=
  { rel := rel
    loadAddr := segment.loadAddr
    dataLen := segment.dataLen }

end SegmentImage

namespace AppImage

def headerBytes (image : AppImage) : List UInt8 :=
  [0xE9, UInt8.ofNat image.segments.length, image.fill 2, image.fill 3] ++
    u32ToLeBytes image.entryAddr ++
    [image.fill 8, image.fill 9, image.fill 10, image.fill 11] ++
    u16ToLeBytes image.chipId ++
    [image.fill 14, image.fill 15, image.fill 16, image.fill 17,
      image.fill 18, image.fill 19, image.fill 20, image.fill 21,
      image.fill 22, image.flag]

def segmentBytes (segments : List SegmentImage) : List UInt8 :=
  segments.flatMap SegmentImage.encode

def body (image : AppImage) : List UInt8 :=
  image.headerBytes ++ segmentBytes image.segments

/-- The XOR of all segment data. -/
def checksum (seed : UInt8) (segments : List SegmentImage) : UInt8 :=
  (segments.flatMap SegmentImage.data).foldl (· ^^^ ·) seed

/-- The body, zeros, and the checksum as the last byte of a block of 16. -/
def payload (seed : UInt8) (image : AppImage) : List UInt8 :=
  image.body ++
    (List.replicate (15 - image.body.length % 16) 0 ++
      [checksum seed image.segments])

def encode (digest : List UInt8 → Digest) (seed : UInt8)
    (image : AppImage) : List UInt8 :=
  image.payload seed ++
    if image.flag ≠ 0 then (digest (image.payload seed)).toList else []

/-- The fields the readers are expected to return. -/
def header (image : AppImage) : ImageHeader :=
  { magic := 0xE9
    segmentCount := UInt8.ofNat image.segments.length
    entryAddr := image.entryAddr
    chipId := image.chipId
    hashAppended := image.flag != 0 }

/-- What the loader does to the outside: it reports each segment and writes
its data, in order. -/
def loadEffects : Nat → List SegmentImage → List Event
  | _, [] => []
  | index, segment :: rest =>
      .onSegment index segment.loadAddr segment.dataLen ::
        .memWrite segment.loadAddr segment.data ::
        loadEffects (index + 1) rest

end AppImage

/-- The events that are not reads. -/
def effects (trace : List Event) : List Event :=
  trace.filter fun event =>
    match event with
    | .romRead _ _ _ => false
    | _ => true

/-! ## Flashes that hold bytes -/

def Flash.Holds (flash : Flash) (start : UInt32) (bytes : List UInt8) :
    Prop :=
  (flash.slice start bytes.length).toList = bytes

theorem holds_append_iff {flash : Flash} {start : UInt32}
    {first second : List UInt8} :
    flash.Holds start (first ++ second) ↔
      flash.Holds start first ∧
        flash.Holds (start + UInt32.ofNat first.length) second := by
  unfold Flash.Holds
  rw [List.length_append, ← slice_append]
  constructor
  · intro whole
    exact List.append_inj whole (by simp)
  · rintro ⟨left, right⟩
    rw [left, right]

theorem byte_of_holds {flash : Flash} {start : UInt32}
    {bytes : List UInt8} (holds : flash.Holds start bytes) (index : Nat)
    (below : index < bytes.length) :
    flash.byte (start + UInt32.ofNat index) = bytes[index] := by
  have byte : (flash.slice start bytes.length).toList[index]? =
      bytes[index]? := congrArg (fun list => list[index]?) holds
  simpa [below, Flash.slice] using byte

theorem slice_of_holds {flash : Flash} {start : UInt32} {len : Nat}
    {bytes : Vector UInt8 len} (holds : flash.Holds start bytes.toList) :
    flash.slice start len = bytes := by
  apply Vector.ext
  intro index below
  have byte := byte_of_holds holds index (by simpa using below)
  simpa [Flash.slice] using byte

theorem word_of_holds {flash : Flash} {start word : UInt32}
    (holds : flash.Holds start (u32ToLeBytes word)) :
    flash.word start = word := by
  have byte0 := byte_of_holds holds 0 (by simp)
  have byte1 := byte_of_holds holds 1 (by simp)
  have byte2 := byte_of_holds holds 2 (by simp)
  have byte3 := byte_of_holds holds 3 (by simp)
  have zero : start + UInt32.ofNat 0 = start := UInt32.add_zero start
  rw [zero] at byte0
  have word' : flash.word start = u32FromLeBytes (flash.byte start)
      (flash.byte (start + UInt32.ofNat 1))
      (flash.byte (start + UInt32.ofNat 2))
      (flash.byte (start + UInt32.ofNat 3)) := rfl
  rw [word', byte0, byte1, byte2, byte3]
  exact u32FromLeBytes_toLeBytes word

/-! ## The header -/

section Header

variable {flash : Flash} {off : UInt32} {image : AppImage}

@[simp] theorem length_headerBytes (image : AppImage) :
    image.headerBytes.length = 24 := rfl

private theorem header_eq_bytes (flash : Flash) (off : UInt32) :
    flash.header off =
      { magic := flash.byte (off + UInt32.ofNat 0)
        segmentCount := flash.byte (off + UInt32.ofNat 1)
        entryAddr := u32FromLeBytes (flash.byte (off + UInt32.ofNat 4))
          (flash.byte (off + UInt32.ofNat 5))
          (flash.byte (off + UInt32.ofNat 6))
          (flash.byte (off + UInt32.ofNat 7))
        chipId := u16FromLeBytes (flash.byte (off + UInt32.ofNat 12))
          (flash.byte (off + UInt32.ofNat 13))
        hashAppended := flash.byte (off + UInt32.ofNat 23) != 0 } := by
  simp only [Flash.header, Flash.slice, Vector.getElem_ofFn]

theorem header_of_holds (holds : flash.Holds off image.headerBytes) :
    flash.header off = image.header := by
  have byte := byte_of_holds holds
  simp only [length_headerBytes] at byte
  have magic : flash.byte (off + UInt32.ofNat 0) = 0xE9 :=
    byte 0 (by decide)
  have count : flash.byte (off + UInt32.ofNat 1) =
      UInt8.ofNat image.segments.length := byte 1 (by decide)
  have flag : flash.byte (off + UInt32.ofNat 23) = image.flag :=
    byte 23 (by decide)
  have entry : u32FromLeBytes (flash.byte (off + UInt32.ofNat 4))
      (flash.byte (off + UInt32.ofNat 5))
      (flash.byte (off + UInt32.ofNat 6))
      (flash.byte (off + UInt32.ofNat 7)) = image.entryAddr := by
    rw [byte 4 (by decide), byte 5 (by decide), byte 6 (by decide),
      byte 7 (by decide)]
    exact u32FromLeBytes_toLeBytes image.entryAddr
  have chip : u16FromLeBytes (flash.byte (off + UInt32.ofNat 12))
      (flash.byte (off + UInt32.ofNat 13)) = image.chipId := by
    rw [byte 12 (by decide), byte 13 (by decide)]
    exact u16FromLeBytes_toLeBytes image.chipId
  rw [header_eq_bytes, magic, count, entry, chip, flag, AppImage.header]

end Header

/-! ## The segment table -/

section Table

variable {flash : Flash} {off : UInt32}

@[simp] theorem length_encode (segment : SegmentImage) :
    segment.encode.length = 8 + segment.data.length := by
  simp only [SegmentImage.encode, List.length_append,
    length_u32ToLeBytes]

theorem toNat_dataLen (segment : SegmentImage) :
    segment.dataLen.toNat = segment.data.length := by
  have small := segment.small
  rw [SegmentImage.dataLen, UInt32.toNat_ofNat',
    Nat.mod_eq_of_lt (by omega)]

theorem extent_located (segment : SegmentImage) (rel : Nat) :
    (segment.located rel).extent = segment.encode.length := by
  rw [length_encode, Segment.extent, SegmentImage.located, toNat_dataLen]

/-- The segment header and data that a flash holds are found where they
lie. -/
theorem segmentAt_of_holds {segment : SegmentImage} {rel : Nat}
    (holds : flash.Holds (off + UInt32.ofNat rel) segment.encode) :
    segmentAt flash off rel = segment.located rel ∧
      (segment.located rel).data flash off = segment.data := by
  obtain ⟨header, data⟩ := holds_append_iff.mp holds
  obtain ⟨addr, len⟩ := holds_append_iff.mp header
  have addrWord := word_of_holds addr
  have lenWord := word_of_holds len
  constructor
  · simp only [segmentAt, SegmentImage.located, addrWord]
    congr 1
  · simp only [List.length_append, length_u32ToLeBytes] at data
    rw [add_ofNat_add_ofNat] at data
    have sameLen : (segment.located rel).dataLen.toNat =
        segment.data.length := toNat_dataLen segment
    rw [Segment.data, sameLen]
    exact data

theorem segmentTable_of_holds {segment : SegmentImage}
    {rest : List SegmentImage} {rel : Nat}
    (holds : flash.Holds (off + UInt32.ofNat rel)
      (AppImage.segmentBytes (segment :: rest))) :
    segmentTable flash off (segment :: rest).length rel =
        segment.located rel ::
          segmentTable flash off rest.length
            (rel + segment.encode.length) ∧
      (segment.located rel).data flash off = segment.data ∧
      flash.Holds (off + UInt32.ofNat (rel + segment.encode.length))
        (AppImage.segmentBytes rest) := by
  simp only [AppImage.segmentBytes, List.flatMap_cons] at holds
  obtain ⟨first, later⟩ := holds_append_iff.mp holds
  rw [add_ofNat_add_ofNat] at later
  obtain ⟨located, data⟩ := segmentAt_of_holds first
  refine ⟨?_, data, later⟩
  simp only [List.length_cons, segmentTable, located, extent_located]

/-- The table ends where the encoded segments end. -/
theorem tableEnd_of_holds {segments : List SegmentImage} {rel : Nat}
    (holds : flash.Holds (off + UInt32.ofNat rel)
      (AppImage.segmentBytes segments)) :
    tableEnd rel (segmentTable flash off segments.length rel) =
      rel + (AppImage.segmentBytes segments).length := by
  induction segments generalizing rel with
  | nil => rfl
  | cons segment rest induction =>
      obtain ⟨table, _, later⟩ := segmentTable_of_holds holds
      have tail := induction later
      rw [table, tableEnd_cons, extent_located, tail]
      simp only [AppImage.segmentBytes, List.flatMap_cons,
        List.length_append, Nat.add_assoc]

theorem located_loaded {segment : SegmentImage} {rel len : Nat}
    (readable : flash.WindowReadable off len)
    (fits : rel + segment.encode.length ≤ len) :
    (segment.located rel).Loaded flash off := by
  rw [length_encode] at fits
  have lenNat := toNat_dataLen segment
  have small := segment.small
  have lenAligned := segment.lenAligned
  refine ⟨⟨⟨readable rel 8 (by omega), ?_⟩, ?_, segment.addrAligned⟩, ?_⟩
  · apply UInt32.le_iff_toNat_le.mpr
    rw [SegmentImage.located, lenNat]
    exact small
  · apply UInt32.toNat_inj.mp
    simp only [SegmentImage.located, UInt32.toNat_mod, lenNat,
      UInt32.reduceToNat, lenAligned]
  · rw [SegmentImage.located, lenNat]
    exact readable (rel + 8) segment.data.length (by omega)

theorem loaded_of_holds {segments : List SegmentImage} {rel len : Nat}
    (holds : flash.Holds (off + UInt32.ofNat rel)
      (AppImage.segmentBytes segments))
    (readable : flash.WindowReadable off len)
    (fits : rel + (AppImage.segmentBytes segments).length ≤ len) :
    ∀ segment ∈ segmentTable flash off segments.length rel,
      segment.Loaded flash off := by
  induction segments generalizing rel with
  | nil => simp [segmentTable]
  | cons segment rest induction =>
      obtain ⟨table, _, later⟩ := segmentTable_of_holds holds
      simp only [AppImage.segmentBytes, List.flatMap_cons,
        List.length_append] at fits
      have head : (segment.located rel).Loaded flash off :=
        located_loaded readable (by omega)
      have tailFits : rel + segment.encode.length +
          (AppImage.segmentBytes rest).length ≤ len := by
        simp only [AppImage.segmentBytes]
        omega
      have tail := induction later tailFits
      rw [table]
      simp only [List.mem_cons, forall_eq_or_imp]
      exact ⟨head, tail⟩

/-- The loader reports and writes the encoded segments in order. -/
theorem effects_of_holds {segments : List SegmentImage} {rel : Nat}
    (index : Nat)
    (holds : flash.Holds (off + UInt32.ofNat rel)
      (AppImage.segmentBytes segments)) :
    effects (loadTableEvents flash off index
        (segmentTable flash off segments.length rel)) =
      AppImage.loadEffects index segments := by
  induction segments generalizing rel index with
  | nil => rfl
  | cons segment rest induction =>
      obtain ⟨table, data, later⟩ := segmentTable_of_holds holds
      have tail := induction (index + 1) later
      simp only [effects] at tail
      rw [table]
      simp only [loadTableEvents, Segment.loadEvents, data, effects,
        AppImage.loadEffects, List.filter_append, tail]
      rfl

end Table

/-! ## The whole image -/

section Image

variable {flash : Flash} {off : UInt32} {image : AppImage}

theorem length_payload (seed : UInt8) (image : AppImage) :
    (image.payload seed).length = roundUp16 (image.body.length + 1) := by
  simp only [AppImage.payload, List.length_append, List.length_replicate,
    List.length_singleton, roundUp16]
  omega

theorem toNat_segmentCount (image : AppImage) :
    image.header.segmentCount.toNat = image.segments.length := by
  have count := image.count
  rw [AppImage.header, UInt8.toNat_ofNat', Nat.mod_eq_of_lt (by omega)]

theorem segments_of_holds (holds : flash.Holds off image.body) :
    flash.Holds (off + UInt32.ofNat 24)
      (AppImage.segmentBytes image.segments) :=
  (holds_append_iff.mp holds).2

/-- The readers agree with the encoder on the size of the payload. -/
theorem payloadLen_of_holds (seed : UInt8)
    (holds : flash.Holds off image.body) :
    payloadLen flash off image.header = (image.payload seed).length := by
  have ended := tableEnd_of_holds (segments_of_holds holds)
  rw [length_payload, payloadLen, imageSegments, toNat_segmentCount, ended,
    AppImage.body, List.length_append, length_headerBytes]

theorem length_encodeImage (digest : List UInt8 → Digest) (seed : UInt8)
    (image : AppImage) :
    (image.encode digest seed).length = (image.payload seed).length +
      if image.header.hashAppended then 32 else 0 := by
  by_cases flag : image.flag = 0
  · simp [AppImage.encode, AppImage.header, flag]
  · simp [AppImage.encode, AppImage.header, flag]

theorem imageLoaded_of_holds (holds : flash.Holds off image.body)
    (readable : flash.WindowReadable off image.body.length) :
    ∀ segment ∈ imageSegments flash off image.header,
      segment.Loaded flash off := by
  rw [imageSegments, toNat_segmentCount]
  apply loaded_of_holds (segments_of_holds holds) readable
  simp [AppImage.body]

theorem chunkReadable_of_window {len : Nat}
    (readable : flash.WindowReadable off len) :
    ∀ k < chunkCount len, ChunkReadable flash off len k := by
  intro k below
  have start := chunkSpan_start_lt below
  apply readable
  simp only [chunkSpan]
  omega

theorem verifyAppSha256_of_holds {sha : Sha256}
    {digest : List UInt8 → Digest} (streams : sha.Streams digest)
    (seed : UInt8) (flag : image.flag ≠ 0)
    (holds : flash.Holds off (image.encode digest seed))
    (readable : flash.WindowReadable off
      (image.encode digest seed).length) :
    ((verifyAppSha256 sha off image.header).run flash).result =
      .ok (digest (image.payload seed)) := by
  have hashed : image.header.hashAppended = true := by
    simpa [AppImage.header] using flag
  simp only [AppImage.encode, flag, ne_eq, not_false_eq_true, if_true,
    List.length_append, Vector.length_toList] at holds readable
  obtain ⟨payloadHeld, digestHeld⟩ := holds_append_iff.mp holds
  have bodyHeld := (holds_append_iff.mp payloadHeld).1
  have bodyShort : image.body.length ≤ (image.payload seed).length := by
    simp [AppImage.payload]
  have len := payloadLen_of_holds seed bodyHeld
  have loaded := imageLoaded_of_holds bodyHeld
    (fun rel size fits => readable rel size (by omega))
  have aligned := payloadLen_mod flash off image.header
  have chunks := chunkReadable_of_window
    (fun rel size fits => readable rel size (by omega) :
      flash.WindowReadable off (payloadLen flash off image.header))
  have last := readable (payloadLen flash off image.header) 32 (by omega)
  rw [run_verifyAppSha256_of_sized hashed
      (fun segment member => (loaded segment member).1.1),
    run_verifyPayload_of_readable aligned chunks last]
  have actual : chunkedDigest sha flash off
      (payloadLen flash off image.header) =
        digest (image.payload seed) := by
    rw [chunkedDigest_eq streams, len, payloadHeld]
  have expected : flash.slice (off + UInt32.ofNat
      (payloadLen flash off image.header)) 32 =
        digest (image.payload seed) := by
    rw [len]
    exact slice_of_holds digestHeld
  rw [actual, expected]
  simp

end Image

/-- On a flash that holds an encoded image, the readers return its fields,
its size and its digest, and the loader reports and writes its segments. -/
theorem decode_encode {sha : Sha256} {digest : List UInt8 → Digest}
    (streams : sha.Streams digest) (image : AppImage) (seed : UInt8)
    {flash : Flash} {off : UInt32}
    (holds : flash.Holds off (image.encode digest seed))
    (readable : flash.WindowReadable off
      (image.encode digest seed).length) :
    ((readHeader off).run flash).result = .ok image.header ∧
      (∃ total,
        ((computeImageTotalSize off image.header).run flash).result =
          .ok total ∧
        total.toNat = (image.encode digest seed).length) ∧
      (image.flag ≠ 0 →
        ((verifyAppSha256 sha off image.header).run flash).result =
          .ok (digest (image.payload seed))) ∧
      ((loadSegments off image.header).run flash).result = .ok () ∧
      effects ((loadSegments off image.header).run flash).trace =
        AppImage.loadEffects 0 image.segments := by
  have payloadHeld := (holds_append_iff.mp holds).1
  have bodyHeld := (holds_append_iff.mp payloadHeld).1
  have headerHeld := (holds_append_iff.mp bodyHeld).1
  have bodyShort : image.body.length ≤
      (image.encode digest seed).length := by
    simp only [AppImage.encode, AppImage.payload, List.length_append]
    omega
  have headerShort : 24 ≤ image.body.length := by
    simp [AppImage.body]
  have loaded := imageLoaded_of_holds bodyHeld
    (fun rel size fits => readable rel size (by omega))
  have load := run_loadSegments_of_loaded loaded
  refine ⟨?_, ?_, fun flag =>
    verifyAppSha256_of_holds streams seed flag holds readable, ?_, ?_⟩
  · have headerReadable := readable 0 24 (by omega)
    have zero : off + UInt32.ofNat 0 = off := UInt32.add_zero off
    rw [zero] at headerReadable
    have fields := header_of_holds headerHeld
    apply result_readHeader_eq_ok_iff.mpr
    refine ⟨headerReadable, ?_, fields.symm⟩
    rw [fields]
    rfl
  · have sized := fun segment member => (loaded segment member).1.1
    have bound := payloadLen_add_lt
      (fun segment member => (sized segment member).2)
    have len := payloadLen_of_holds seed bodyHeld
    refine ⟨_, result_computeImageTotalSize_eq_ok_iff.mpr ⟨sized, rfl⟩,
      ?_⟩
    rw [len] at bound ⊢
    rw [length_encodeImage]
    by_cases hashed : image.header.hashAppended = true
    · have lenNat : hashLen.toNat = 32 := rfl
      rw [if_pos hashed, if_pos hashed, UInt32.toNat_add,
        UInt32.toNat_ofNat', lenNat]
      omega
    · rw [if_neg hashed, if_neg hashed, UInt32.add_zero,
        UInt32.toNat_ofNat', Nat.mod_eq_of_lt (by omega), Nat.add_zero]
  · rw [load]
  · rw [load]
    have table := effects_of_holds 0 (segments_of_holds bodyHeld)
    rw [← toNat_segmentCount] at table
    exact table

/-- The image the sample flash holds. -/
def sampleImage : AppImage :=
  { entryAddr := 0x4FF50000
    chipId := 18
    flag := 1
    fill := fun position =>
      if position = 2 then 2
      else if position = 3 then 0x1F
      else if position = 8 then 0xEE
      else 0
    segments :=
      [{ loadAddr := 0x4FF50000
         data := [0x13, 0, 0, 0]
         addrAligned := by decide
         lenAligned := by decide
         small := by decide }]
    count := by decide }

theorem decode_encode_sample :
    ((readHeader 0x20000).run sampleFlash).result =
        .ok sampleImage.header ∧
      effects ((loadSegments 0x20000 sampleImage.header).run
          sampleFlash).trace =
        [.onSegment 0 0x4FF50000 4,
          .memWrite 0x4FF50000 [0x13, 0, 0, 0]] := by
  have held : (sampleFlash.slice 0x20000 (sampleImage.encode sampleHash
      0xEF).length).toList = sampleImage.encode sampleHash 0xEF := by
    decide
  obtain ⟨header, _, _, _, loaded⟩ :=
    decode_encode (Sha256.streams_buffered sampleHash) sampleImage 0xEF held
      (fun _ _ _ => rfl)
  exact ⟨header, loaded⟩

end MiniBootloader
