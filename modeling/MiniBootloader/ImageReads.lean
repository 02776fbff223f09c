import MiniBootloader.Boot
import MiniBootloader.DigestGate

/-!
# The reads of a booted image

A boot of an image that reaches the jump got past every one of its steps, so
its trace is determined by the segment table: the header, the reads of the
digest check if there is one, and the events of the loader.  Every read is a
window of the image, and windows are all that two flashes have to share for
the boot to go the same way.
-/

namespace MiniBootloader

open Words

/-! ## Windows of an image -/

/-- Every ROM read of the trace is a window of the first `len` bytes from
`off` on. -/
def ReadsWithin (off : UInt32) (len : Nat) (trace : List Event) : Prop :=
  ∀ start dest size, Event.romRead start dest size ∈ trace →
    ∃ rel, start = off + UInt32.ofNat rel ∧ rel + size ≤ len

theorem ReadsWithin.mono {off : UInt32} {small large : Nat}
    {trace : List Event} (within : ReadsWithin off small trace)
    (le : small ≤ large) : ReadsWithin off large trace := by
  intro start dest size member
  obtain ⟨rel, address, bound⟩ := within start dest size member
  exact ⟨rel, address, Nat.le_trans bound le⟩

theorem ReadsWithin.append {off : UInt32} {len : Nat}
    {first second : List Event} (firstWithin : ReadsWithin off len first)
    (secondWithin : ReadsWithin off len second) :
    ReadsWithin off len (first ++ second) := by
  intro start dest size member
  rcases List.mem_append.mp member with early | late
  · exact firstWithin start dest size early
  · exact secondWithin start dest size late

theorem readsWithin_window {off : UInt32} {rel size len : Nat} {dest : Dest}
    (bound : rel + size ≤ len) :
    ReadsWithin off len [.romRead (off + UInt32.ofNat rel) dest size] := by
  intro start dest' size' member
  cases List.mem_singleton.mp member
  exact ⟨rel, rfl, bound⟩

theorem readsWithin_header (off : UInt32) :
    ReadsWithin off 24 [.romRead off .words 24] := by
  have window : ReadsWithin off 24
      [.romRead (off + UInt32.ofNat 0) .words 24] :=
    readsWithin_window (Nat.le_refl 24)
  simpa using window

/-- The bytes a read within a window touches lie in the window. -/
theorem ReadsWithin.inRange {off start : UInt32} {len size : Nat}
    {dest : Dest} {trace : List Event} (within : ReadsWithin off len trace)
    (small : len ≤ 2 ^ 32) (member : .romRead start dest size ∈ trace)
    {index : Nat} (below : index < size) :
    InRange off len (start + UInt32.ofNat index) := by
  obtain ⟨rel, rfl, bound⟩ := within start dest size member
  rw [add_ofNat_add_ofNat]
  exact (inRange_add_ofNat (by omega)).mpr (by omega)

/-! ## Flashes that share a window -/

/-- Every read of a window of the `len` bytes from `off` on succeeds. -/
def Flash.WindowReadable (flash : Flash) (off : UInt32) (len : Nat) :
    Prop :=
  ∀ rel size, rel + size ≤ len →
    flash.Readable (off + UInt32.ofNat rel) size

/-- The second flash holds the same `len` bytes from `off` on, and can be
read there. -/
structure SameWindow (off : UInt32) (len : Nat) (flash flash' : Flash) :
    Prop where
  bytes : ∀ index < len,
    flash'.byte (off + UInt32.ofNat index) =
      flash.byte (off + UInt32.ofNat index)
  reads : flash'.WindowReadable off len

theorem SameWindow.sameAt {off : UInt32} {len : Nat} {flash flash' : Flash}
    (same : SameWindow off len flash flash') {trace : List Event}
    (within : ReadsWithin off len trace)
    (succeed : ReadsSucceed flash trace) :
    ∀ event ∈ trace, sameAt flash flash' event := by
  intro event member
  cases event with
  | romRead start dest size =>
      have readable := succeed start dest size member
      obtain ⟨rel, rfl, bound⟩ := within start dest size member
      have readable' := same.reads rel size bound
      refine ⟨readable'.trans readable.symm, fun _ => ?_⟩
      apply slice_eq_of_bytes
      intro index below
      rw [add_ofNat_add_ofNat]
      exact same.bytes (rel + index) (by omega)
  | memWrite address data => trivial
  | onSegment index loadAddr dataLen => trivial

/-! ## The reads of each step -/

section Steps

variable {sha : Sha256} {flash : Flash} {off : UInt32}
  {header : ImageHeader}

theorem readsWithin_headerReads (flash : Flash) (off : UInt32)
    (count rel : Nat) :
    ReadsWithin off (tableEnd rel (segmentTable flash off count rel))
      ((segmentTable flash off count rel).map
        (Segment.headerRead off)) := by
  intro start dest size member
  obtain ⟨segment, inTable, equality⟩ := List.mem_map.mp member
  have extent := (segment_within_table inTable).2
  cases equality
  refine ⟨segment.rel, rfl, ?_⟩
  simp only [Segment.extent] at extent
  omega

theorem readsWithin_loadTableEvents (flash : Flash) (off : UInt32)
    (index count rel : Nat) :
    ReadsWithin off (tableEnd rel (segmentTable flash off count rel))
      (loadTableEvents flash off index
        (segmentTable flash off count rel)) := by
  intro start dest size member
  obtain ⟨segment, inTable, which⟩ := romRead_mem_loadTableEvents member
  have extent := (segment_within_table inTable).2
  simp only [Segment.extent] at extent
  rcases which with equality | equality
  · cases equality
    exact ⟨segment.rel, rfl, by omega⟩
  · cases equality
    exact ⟨segment.rel + 8, rfl, by omega⟩

theorem readsWithin_chunkReads (off : UInt32) (len : Nat) :
    ReadsWithin off len ((chunkSpans len).map (spanRead off)) := by
  intro start dest size member
  obtain ⟨span, inSpans, equality⟩ := List.mem_map.mp member
  obtain ⟨k, below, rfl⟩ := List.mem_map.mp inSpans
  have before := chunkSpan_start_lt (List.mem_range.mp below)
  cases equality
  refine ⟨(chunkSpan len k).1, rfl, ?_⟩
  simp only [chunkSpan]
  omega

/-- The check reads the payload and the digest behind it. -/
theorem readsWithin_checkReads (flash : Flash) (off : UInt32)
    (header : ImageHeader) :
    ReadsWithin off (payloadLen flash off header + 32)
      (checkReads flash off header) := by
  have tableInside := tableEnd_lt_payloadLen flash off header
  have headers := readsWithin_headerReads flash off
    header.segmentCount.toNat 24
  have chunks := readsWithin_chunkReads off (payloadLen flash off header)
  apply (headers.mono
    (Nat.le_add_right_of_le (Nat.le_of_lt tableInside))).append
  apply (chunks.mono (Nat.le_add_right _ 32)).append
  exact readsWithin_window (Nat.le_refl _)

theorem readsSucceed_loadTableEvents {index : Nat} {table : List Segment}
    (loaded : ∀ segment ∈ table, segment.Loaded flash off) :
    ReadsSucceed flash (loadTableEvents flash off index table) := by
  intro start dest size member
  obtain ⟨segment, inTable, which⟩ := romRead_mem_loadTableEvents member
  rcases which with equality | equality
  · cases equality
    exact (loaded segment inTable).1.1.1
  · cases equality
    exact (loaded segment inTable).2

/-- What a check has established when it accepts an image. -/
structure Verified (sha : Sha256) (flash : Flash) (off : UInt32)
    (header : ImageHeader) : Prop where
  hashed : header.hashAppended = true
  sized : ∀ segment ∈ imageSegments flash off header,
    segment.Sized flash off
  digest : chunkedDigest sha flash off (payloadLen flash off header) =
    appended flash off header
  trace : ((verifyAppSha256 sha off header).run flash).trace =
    checkReads flash off header
  succeed : ReadsSucceed flash (checkReads flash off header)

/-- A successful check met no failing read. -/
theorem readsSucceed_of_verified {d : Digest}
    (accepted : ((verifyAppSha256 sha off header).run flash).result =
      .ok d) :
    ReadsSucceed flash ((verifyAppSha256 sha off header).run flash).trace := by
  intro start dest size member
  by_cases readable : flash.Readable start size
  · exact readable
  · have failure := reports_verifyAppSha256 sha off header flash _ member
      (.flash (.rom (flash.status start (Int32.ofNat size))))
      (by simp [verifyFault, romFault, readable])
    rw [accepted] at failure
    cases failure

theorem verified_of_result {d : Digest}
    (accepted : ((verifyAppSha256 sha off header).run flash).result =
      .ok d) :
    Verified sha flash off header := by
  have succeed := readsSucceed_of_verified accepted
  have hashed : header.hashAppended = true := by
    by_cases hashed : header.hashAppended = true
    · exact hashed
    · simp [verifyAppSha256, hashed] at accepted
  have sized : ∀ segment ∈ imageSegments flash off header,
      segment.Sized flash off := by
    simp only [verifyAppSha256, hashed, not_true_eq_false, if_false,
      Traced.result_bind_eq_ok_iff,
      Traced.result_mapError_eq_ok_iff] at accepted
    obtain ⟨total, size, _⟩ := accepted
    exact (result_computeImageTotalSize_eq_ok_iff.mp size).1
  have run := run_verifyAppSha256 hashed sized succeed
  rw [run] at accepted succeed
  refine ⟨hashed, sized, ?_, congrArg Outcome.trace run, succeed⟩
  by_cases same : chunkedDigest sha flash off
      (payloadLen flash off header) = appended flash off header
  · exact same
  · simp only [same, if_false] at accepted
    cases accepted

end Steps

/-! ## The whole boot of an image -/

section BootImage

variable {sha : Sha256} {flash : Flash} {off : UInt32}
  {header : ImageHeader}

/-- The reads of the gate in `main`. -/
def gateReads (flash : Flash) (off : UInt32) (header : ImageHeader) :
    List Event :=
  if header.hashAppended then checkReads flash off header else []

/-- The trace of a boot that reaches the jump. -/
def bootReads (flash : Flash) (off : UInt32) (header : ImageHeader) :
    List Event :=
  .romRead off .words 24 :: (gateReads flash off header ++
    loadTableEvents flash off 0 (imageSegments flash off header))

theorem result_bootImage_eq_ok_iff {entry : UInt32} :
    ((bootImage sha off).run flash).result = .ok entry ↔
      ∃ header, ((readHeader off).run flash).result = .ok header ∧
        ((verifyGate sha off header).run flash).result = .ok () ∧
        ((loadSegments off header).run flash).result = .ok () ∧
        header.entryAddr = entry := by
  simp only [bootImage, Traced.result_bind_eq_ok_iff,
    Traced.result_mapError_eq_ok_iff, Traced.run_pure, Except.ok.injEq]
  constructor
  · rintro ⟨header, headerRead, _, gate, _, loaded, jump⟩
    exact ⟨header, headerRead, gate, loaded, jump⟩
  · rintro ⟨header, headerRead, gate, loaded, jump⟩
    exact ⟨header, headerRead, (), gate, (), loaded, jump⟩

/-- The gate lets an image with a declared hash pass exactly when the check
accepts it. -/
theorem result_verifyGate_eq_ok_iff (hashed : header.hashAppended = true) :
    ((verifyGate sha off header).run flash).result = .ok () ↔
      ∃ d, ((verifyAppSha256 sha off header).run flash).result = .ok d := by
  simp only [verifyGate, hashed, if_true, Traced.result_bind_eq_ok_iff,
    Traced.result_mapError_eq_ok_iff, Traced.run_pure, and_true]

theorem trace_verifyGate_of_ok
    (passed : ((verifyGate sha off header).run flash).result = .ok ()) :
    ((verifyGate sha off header).run flash).trace =
        gateReads flash off header ∧
      ReadsSucceed flash (gateReads flash off header) := by
  by_cases hashed : header.hashAppended = true
  · obtain ⟨d, accepted⟩ := (result_verifyGate_eq_ok_iff hashed).mp passed
    have verified := verified_of_result accepted
    have accepted' : (((verifyAppSha256 sha off header).mapError
        Halt.verify).run flash).result = .ok d :=
      Traced.result_mapError_eq_ok_iff.mpr accepted
    simp only [gateReads, hashed, if_true]
    refine ⟨?_, verified.succeed⟩
    simp only [verifyGate, hashed, if_true,
      Traced.run_bind_of_ok accepted', Traced.run_mapError,
      verified.trace, Traced.run_pure, List.append_nil]
  · simp [verifyGate, gateReads, hashed, ReadsSucceed]

/-- A boot that reaches the jump has read the header, checked the image if it
declares a hash, and loaded every segment. -/
theorem run_bootImage_of_ok {entry : UInt32}
    (headerRead : ((readHeader off).run flash).result = .ok header)
    (booted : ((bootImage sha off).run flash).result = .ok entry) :
    (bootImage sha off).run flash =
        ⟨bootReads flash off header, .ok header.entryAddr⟩ ∧
      ReadsSucceed flash (bootReads flash off header) := by
  obtain ⟨header', headerRead', gate, loaded, rfl⟩ :=
    result_bootImage_eq_ok_iff.mp booted
  cases headerRead.symm.trans headerRead'
  obtain ⟨gateTrace, gateSucceed⟩ := trace_verifyGate_of_ok gate
  have segments := loaded_of_result_loadSegments loaded
  have load := run_loadSegments_of_loaded segments
  have headerReadable := (result_readHeader_eq_ok_iff.mp headerRead).1
  constructor
  · have headerRun : ((readHeader off).mapError Halt.header).run flash =
        ⟨[.romRead off .words 24], .ok header⟩ := by
      rw [Traced.run_mapError, trace_readHeader, headerRead]
      rfl
    have gateRun : (verifyGate sha off header).run flash =
        ⟨gateReads flash off header, .ok ()⟩ := by
      rw [← gateTrace, ← gate]
    simp only [bootImage, Traced.run_bind, headerRun, gateRun,
      Traced.run_mapError, load, Except.mapError, Traced.run_pure,
      List.append_nil]
    rfl
  · intro start dest size member
    rcases List.mem_cons.mp member with equality | later
    · cases equality
      exact headerReadable
    · rcases List.mem_append.mp later with check | copy
      · exact gateSucceed start dest size check
      · exact readsSucceed_loadTableEvents segments start dest size copy

theorem local_verifyGate (sha : Sha256) (off : UInt32)
    (header : ImageHeader) : (verifyGate sha off header).Local sameAt := by
  unfold verifyGate
  split
  · exact (local_verifyAppSha256 sha off header).mapError.bind
      fun _ => Traced.local_pure sameAt ()
  · exact Traced.local_pure sameAt ()

theorem local_bootImage (sha : Sha256) (off : UInt32) :
    (bootImage sha off).Local sameAt := by
  apply (local_readHeader off).mapError.bind
  intro header
  apply (local_verifyGate sha off header).bind
  intro _
  apply (local_loadWalk _ _ _).mapError.bind
  intro _
  exact Traced.local_pure sameAt _

end BootImage

end MiniBootloader
