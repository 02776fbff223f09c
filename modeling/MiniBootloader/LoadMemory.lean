import MiniBootloader.Library.Overlay
import MiniBootloader.DigestGate
import MiniBootloader.WalkFailure

/-!
# The memory `load_segments` leaves behind

Memory is a map from addresses to bytes, and the copies of the loader are
writes laid over it in the order they are done.  After a successful load an
address holds the byte of the last segment that covers it.  A load that ends
at a segment leaves what loading the segments in front of it leaves.
-/

namespace MiniBootloader

open Overlay Words

abbrev Memory := UInt32 → UInt8

/-- The cells that hold the bytes from `start` on. -/
def bytesAt (start : UInt32) (data : List UInt8) (address : UInt32) :
    Option UInt8 :=
  data[(address - start).toNat]?

/-- The cells an event writes. -/
def Event.patch : Event → UInt32 → Option UInt8
  | .memWrite address data => bytesAt address data
  | .romRead _ _ _ => fun _ => none
  | .onSegment _ _ _ => fun _ => none

/-- The memory after a trace. -/
def memoryAfter (memory : Memory) (trace : List Event) : Memory :=
  overlayAll memory (trace.map Event.patch)

theorem memoryAfter_append (memory : Memory) (first second : List Event) :
    memoryAfter memory (first ++ second) =
      memoryAfter (memoryAfter memory first) second := by
  rw [memoryAfter, List.map_append, overlayAll_append]
  rfl

/-! ## The cells of a segment -/

namespace Segment

/-- The address lies in the range the segment is loaded to. -/
def Covers (segment : Segment) (address : UInt32) : Prop :=
  segment.loadAddr.toNat ≤ address.toNat ∧
    address.toNat < segment.loadAddr.toNat + segment.dataLen.toNat

/-- The byte of the image that belongs to an address of the range. -/
def byteFor (flash : Flash) (off : UInt32) (segment : Segment)
    (address : UInt32) : UInt8 :=
  flash.byte (segment.dataPos off + (address - segment.loadAddr))

/-- The range does not run over the end of the address space. -/
def Fits (segment : Segment) : Prop :=
  segment.loadAddr.toNat + segment.dataLen.toNat ≤ 2 ^ 32

instance (segment : Segment) (address : UInt32) :
    Decidable (segment.Covers address) :=
  inferInstanceAs (Decidable (_ ∧ _))

instance (segment : Segment) : Decidable segment.Fits :=
  inferInstanceAs (Decidable (_ ≤ _))

def patch (flash : Flash) (off : UInt32) (segment : Segment) :
    UInt32 → Option UInt8 :=
  bytesAt segment.loadAddr (segment.data flash off)

section Patch

variable {flash : Flash} {off address : UInt32} {segment : Segment}

theorem patch_of_covers (fits : segment.Fits)
    (covers : segment.Covers address) :
    segment.patch flash off address =
      some (segment.byteFor flash off address) := by
  have inside : (address - segment.loadAddr).toNat <
      segment.dataLen.toNat := (inRange_iff_of_le fits).mpr covers
  rw [patch, bytesAt, data, Vector.getElem?_toList,
    Vector.getElem?_eq_getElem inside]
  simp only [Flash.slice, Vector.getElem_ofFn, UInt32.ofNat_toNat, byteFor]

theorem patch_of_not_covers (fits : segment.Fits)
    (outside : ¬ segment.Covers address) :
    segment.patch flash off address = none := by
  have behind : segment.dataLen.toNat ≤
      (address - segment.loadAddr).toNat := by
    apply Nat.le_of_not_lt
    intro inside
    exact outside ((inRange_iff_of_le fits).mp inside)
  rw [patch, bytesAt, data, Vector.getElem?_toList]
  exact Vector.getElem?_eq_none behind

end Patch

end Segment

/-! ## The memory of a table -/

section Table

variable (flash : Flash) (off : UInt32)

/-- The loader lays the segments over the memory in the order of the
table. -/
theorem memoryAfter_loadTableEvents (memory : Memory) (index : Nat)
    (table : List Segment) :
    memoryAfter memory (loadTableEvents flash off index table) =
      overlayAll memory (table.map (Segment.patch flash off)) := by
  induction table generalizing memory index with
  | nil => rfl
  | cons segment table ih =>
      rw [loadTableEvents, memoryAfter_append, ih]
      rfl

variable {flash off}

theorem romRead_mem_faultEvents {start : UInt32} {dest : Dest}
    {len index : Nat} {segment : Segment}
    (member : .romRead start dest len ∈
      segment.faultEvents flash off index) :
    .romRead start dest len = segment.headerRead off ∨
      .romRead start dest len = segment.copyRead off := by
  rw [Segment.faultEvents] at member
  rcases List.mem_cons.mp member with header | rest
  · exact .inl header
  · right
    split at rest
    · rcases List.mem_cons.mp rest with report | copy
      · cases report
      · split at copy
        · exact List.mem_singleton.mp copy
        · cases copy
    · cases rest

/-- Only a copy that succeeds writes to memory. -/
theorem memoryAfter_faultEvents (memory : Memory) (index : Nat)
    (segment : Segment) :
    memoryAfter memory (segment.faultEvents flash off index) = memory := by
  rw [Segment.faultEvents]
  split
  · split <;> rfl
  · rfl

end Table

/-! ## What a load leaves behind -/

/-- Each address holds the byte of the last segment of the table that covers
it, and what it held before where no segment does. -/
structure HoldsTable (flash : Flash) (off : UInt32) (memory : Memory)
    (table : List Segment) (memory' : Memory) : Prop where
  covered : ∀ before segment after address,
    table = before ++ segment :: after → segment.Covers address →
    (∀ later ∈ after, ¬ later.Covers address) →
    memory' address = segment.byteFor flash off address
  uncovered : ∀ address, (∀ segment ∈ table, ¬ segment.Covers address) →
    memory' address = memory address

theorem holdsTable_overlayAll {flash : Flash} {off : UInt32}
    (memory : Memory) {table : List Segment}
    (fits : ∀ segment ∈ table, segment.Fits) :
    HoldsTable flash off memory table
      (overlayAll memory (table.map (Segment.patch flash off))) := by
  constructor
  · intro before segment after address split covers last
    subst split
    rw [List.map_append, List.map_cons]
    apply overlayAll_of_last
    · exact segment.patch_of_covers (fits segment (by simp)) covers
    · intro patch member
      obtain ⟨later, inAfter, rfl⟩ := List.mem_map.mp member
      exact later.patch_of_not_covers (fits later (by simp [inAfter]))
        (last later inAfter)
  · intro address none
    apply overlayAll_of_uncovered
    intro patch member
    obtain ⟨segment, inTable, rfl⟩ := List.mem_map.mp member
    exact segment.patch_of_not_covers (fits segment inTable)
      (none segment inTable)

/-- The image with only its first segments. -/
def ImageHeader.firstSegments (header : ImageHeader) (count : Nat) :
    ImageHeader :=
  { header with segmentCount := UInt8.ofNat count }

/-- The load ended with `error` at segment `position`: it left the memory
that loading the segments in front of it leaves, and read nothing of those
behind it. -/
structure LoadEndedAt (flash : Flash) (off : UInt32) (header : ImageHeader)
    (memory : Memory) (error : AppLoadError) (position : Nat) :
    Prop where
  failing : ∃ segment,
    (imageSegments flash off header)[position]? = some segment ∧
      segment.LoadFails flash off error
  loadedBefore :
    ((loadSegments off (header.firstSegments position)).run
      flash).result = .ok ()
  memory : memoryAfter memory ((loadSegments off header).run flash).trace =
    memoryAfter memory ((loadSegments off
      (header.firstSegments position)).run flash).trace
  reads : ∀ start dest len,
    .romRead start dest len ∈
        ((loadSegments off header).run flash).trace →
      ∃ segment ∈ (imageSegments flash off header).take (position + 1),
        .romRead start dest len = segment.headerRead off ∨
          .romRead start dest len = segment.copyRead off

section Load

variable {flash : Flash} {off : UInt32} {header : ImageHeader}

/-- The first segments of an image are those of the table. -/
theorem imageSegments_firstSegments {before after : List Segment}
    {failing : Segment}
    (table : imageSegments flash off header = before ++ failing :: after) :
    imageSegments flash off (header.firstSegments before.length) =
      before := by
  have total : before.length + (after.length + 1) =
      header.segmentCount.toNat := by
    rw [← length_segmentTable flash off header.segmentCount.toNat 24,
      ← imageSegments, table, List.length_append, List.length_cons]
  have bound := header.segmentCount.toNat_lt
  have count : (header.firstSegments before.length).segmentCount.toNat =
      before.length := by
    rw [ImageHeader.firstSegments, UInt8.toNat_ofNat',
      Nat.mod_eq_of_lt (by omega)]
  rw [imageSegments, count]
  exact segmentTable_take table

theorem loadEndedAt_of_error (memory : Memory) {error : AppLoadError}
    (failed : ((loadSegments off header).run flash).result =
      .error error) :
    ∃ position, LoadEndedAt flash off header memory error position := by
  obtain ⟨before, failing, after, table, loaded, fails⟩ :=
    exists_of_result_loadSegments failed
  have run := run_loadSegments_of_fails table loaded fails
  have first := imageSegments_firstSegments table
  have runBefore : (loadSegments off
      (header.firstSegments before.length)).run flash =
        ⟨loadTableEvents flash off 0 before, .ok ()⟩ := by
    have loadedFirst := loaded
    rw [← first] at loadedFirst
    rw [run_loadSegments_of_loaded loadedFirst, first]
  refine ⟨before.length, ⟨⟨failing, ?_, fails⟩, ?_, ?_, ?_⟩⟩
  · rw [table, List.getElem?_append_right (Nat.le_refl _), Nat.sub_self,
      List.getElem?_cons_zero]
  · rw [runBefore]
  · rw [run, runBefore, memoryAfter_append, memoryAfter_faultEvents]
  · intro start dest len member
    have upTo : (imageSegments flash off header).take (before.length + 1) =
        before ++ [failing] := by
      rw [table, List.take_length_add_append, List.take_succ_cons,
        List.take_zero]
    rw [run, List.mem_append] at member
    rw [upTo]
    rcases member with inBefore | atFailing
    · obtain ⟨segment, inTable, read⟩ :=
        romRead_mem_loadTableEvents inBefore
      exact ⟨segment, List.mem_append_left _ inTable, read⟩
    · exact ⟨failing, List.mem_append_right _ List.mem_cons_self,
        romRead_mem_faultEvents atFailing⟩

/-- The loader writes the segments of the image and nothing else. -/
theorem loadSegments_writes_image
    (fits : ∀ segment ∈ imageSegments flash off header, segment.Fits)
    (memory : Memory) :
    (((loadSegments off header).run flash).result = .ok () →
      (imageSegments flash off header).length =
          header.segmentCount.toNat ∧
        segmentReports ((loadSegments off header).run flash).trace =
          (imageSegments flash off header).mapIdx
            (fun index segment =>
              (index, segment.loadAddr, segment.dataLen)) ∧
        HoldsTable flash off memory (imageSegments flash off header)
          (memoryAfter memory
            ((loadSegments off header).run flash).trace)) ∧
    ∀ error,
      ((loadSegments off header).run flash).result = .error error →
        ∃ position,
          LoadEndedAt flash off header memory error position := by
  constructor
  · intro success
    have loaded := loaded_of_result_loadSegments success
    have reports := segmentReports_loadTableEvents flash off 0
      (imageSegments flash off header)
    simp only [Nat.zero_add] at reports
    rw [run_loadSegments_of_loaded loaded]
    refine ⟨length_segmentTable _ _ _ _, reports, ?_⟩
    rw [memoryAfter_loadTableEvents]
    exact holdsTable_overlayAll memory fits
  · intro error failed
    exact loadEndedAt_of_error memory failed

end Load

/-- Three segments, of which the second lies over the end of the first and
the third has a length that is no multiple of four. -/
def overlappingFlash : Flash :=
  Flash.erased.program 0x20018
    [0, 0, 0xF5, 0x4F, 8, 0, 0, 0, 1, 2, 3, 4, 5, 6, 7, 8,
      4, 0, 0xF5, 0x4F, 4, 0, 0, 0, 0x21, 0x22, 0x23, 0x24,
      2, 0, 0xF5, 0x4F, 6, 0, 0, 0, 0x31, 0x32, 0x33, 0x34, 0x35, 0x36]

theorem loadSegments_writes_image_sample :
    let header (count : UInt8) : ImageHeader :=
      { sampleHeader with segmentCount := count }
    let run (count : UInt8) :=
      (loadSegments 0x20000 (header count)).run overlappingFlash
    let memory := memoryAfter (fun _ => 0) (run 2).trace
    (run 2).result = .ok () ∧
      segmentReports (run 2).trace =
        [(0, 0x4FF50000, 8), (1, 0x4FF50004, 4)] ∧
      memory 0x4FF50003 = 4 ∧ memory 0x4FF50004 = 0x21 ∧
      memory 0x4FF50008 = 0 ∧
      (run 3).result = .error (.unalignedSegment 6) ∧
      ∃ position, LoadEndedAt overlappingFlash 0x20000 (header 3)
        (fun _ => 0) (.unalignedSegment 6) position := by
  intro header run memory
  have table : imageSegments overlappingFlash 0x20000 (header 2) =
      [⟨24, 0x4FF50000, 8⟩, ⟨40, 0x4FF50004, 4⟩] := by decide
  have table' : imageSegments overlappingFlash 0x20000 (header 3) =
      [⟨24, 0x4FF50000, 8⟩, ⟨40, 0x4FF50004, 4⟩, ⟨52, 0x4FF50002, 6⟩] := by
    decide
  have fits : ∀ segment ∈ imageSegments overlappingFlash 0x20000
      (header 2), segment.Fits := by
    rw [table]
    decide
  have fits' : ∀ segment ∈ imageSegments overlappingFlash 0x20000
      (header 3), segment.Fits := by
    rw [table']
    decide
  have success : (run 2).result = .ok () := by decide
  have failure : (run 3).result = .error (.unalignedSegment 6) := by decide
  obtain ⟨written, _⟩ := loadSegments_writes_image fits fun _ => 0
  obtain ⟨_, ended⟩ := loadSegments_writes_image fits' fun _ => 0
  obtain ⟨_, reports, holds⟩ := written success
  refine ⟨success, ?_, ?_, ?_, ?_, failure, ended _ failure⟩
  · rw [reports, table]
    rfl
  · have first := holds.covered [] ⟨24, 0x4FF50000, 8⟩
      [⟨40, 0x4FF50004, 4⟩] 0x4FF50003 table (by decide) (by decide)
    exact first.trans (by decide)
  · have second := holds.covered [⟨24, 0x4FF50000, 8⟩]
      ⟨40, 0x4FF50004, 4⟩ [] 0x4FF50004 table (by decide)
      (List.forall_mem_nil _)
    exact second.trans (by decide)
  · apply holds.uncovered
    rw [table]
    decide

end MiniBootloader
