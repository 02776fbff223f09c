import Mathlib.Order.CompletePartialOrder
import Mathlib.Order.Interval.Set.Disjoint
import MiniBootloader.ImageReads
import MiniBootloader.SlotFallback

/-!
# The loader and the bootloader's own memory

The comments at `load_segments` leave it to the caller to keep the segments
away from the running bootloader, and the caller relies on where apps are
usually linked; no step between the header and the copy looks at a load
address except for its alignment.  So the copies stay out of the region
exactly when every segment that is reached does.
-/

namespace MiniBootloader

/-! ## Reads before the loader -/

/-- A read into a local buffer. -/
def IntoBuffer : Event → Prop
  | .romRead _ dest _ => dest = .words
  | _ => False

section Emits

variable (flash : Flash)

theorem emits_readWords (start : UInt32) (len : Nat) :
    (read start .words len).Emits IntoBuffer flash := by
  by_cases aligned : len % 4 = 0
  · by_cases readable : flash.Readable start len
    · rw [Traced.Emits, run_readWords_of_readable aligned readable]
      simp [IntoBuffer]
    · rw [Traced.Emits, run_readWords_of_not_readable aligned readable]
      simp [IntoBuffer]
  · rw [Traced.Emits, run_read_of_misaligned start (.inl aligned)]
    simp

theorem emits_readHeader (off : UInt32) :
    (readHeader off).Emits IntoBuffer flash := by
  rw [Traced.Emits, trace_readHeader]
  simp [IntoBuffer]

theorem emits_sizeWalk (count : Nat) (total pos : UInt32) :
    (sizeWalk count total pos).Emits IntoBuffer flash := by
  induction count generalizing total pos with
  | zero => exact Traced.emits_pure IntoBuffer total flash
  | succ count induction =>
      have header : (readSegmentHeader pos).Emits IntoBuffer flash :=
        (emits_readWords flash pos 8).mapError.bind
          fun _ _ => Traced.emits_pure IntoBuffer _ flash
      apply header.bind
      intro hdr _
      dsimp only
      split
      · exact Traced.emits_throw IntoBuffer _ flash
      · exact induction _ _

theorem emits_hashLoop (sha : Sha256) (off : UInt32) (len : Nat)
    (hasher : sha.State) (done : Nat) :
    (hashLoop sha off len hasher done).Emits IntoBuffer flash := by
  induction hasher, done using hashLoop.induct sha len with
  | case1 hasher done more want induction =>
      rw [hashLoop, if_pos more]
      exact (emits_readWords flash _ _).bind fun slice _ => induction slice
  | case2 hasher done reached =>
      rw [hashLoop, if_neg reached]
      exact Traced.emits_pure IntoBuffer hasher flash

theorem emits_verifyAppSha256 (sha : Sha256) (off : UInt32)
    (header : ImageHeader) :
    (verifyAppSha256 sha off header).Emits IntoBuffer flash := by
  unfold verifyAppSha256
  split
  · exact Traced.emits_throw IntoBuffer _ flash
  · have size : (computeImageTotalSize off header).Emits IntoBuffer
        flash := by
      apply (emits_sizeWalk flash _ _ _).bind
      intro total _
      dsimp only
      split <;> exact Traced.emits_pure IntoBuffer _ flash
    apply size.mapError.bind
    intro total _
    apply (emits_hashLoop flash sha _ _ _ _).mapError.bind
    intro hasher _
    apply (emits_readWords flash _ _).mapError.bind
    intro expected _
    split
    · exact Traced.emits_throw IntoBuffer _ flash
    · exact Traced.emits_pure IntoBuffer _ flash

theorem emits_verifyGate (sha : Sha256) (off : UInt32)
    (header : ImageHeader) :
    (verifyGate sha off header).Emits IntoBuffer flash := by
  unfold verifyGate
  split
  · exact (emits_verifyAppSha256 flash sha off header).mapError.bind
      fun _ _ => Traced.emits_pure IntoBuffer () flash
  · exact Traced.emits_pure IntoBuffer () flash

end Emits

/-! ## Copies of the loader -/

/-- The segments of a table that the loader hands to the ROM: it gets to a
segment when all earlier ones are loaded. -/
def copiedSegments (flash : Flash) (off : UInt32) :
    List Segment → List Segment
  | [] => []
  | segment :: table =>
      if segment.Copied flash off then
        segment :: if segment.Loaded flash off then
          copiedSegments flash off table
        else
          []
      else
        []

section Copies

variable {flash : Flash} {off start address : UInt32} {size : Nat}

theorem copy_mem_faultEvents_iff {index : Nat} {segment : Segment} :
    .romRead start (.memory address) size ∈
        segment.faultEvents flash off index ↔
      segment.Copied flash off ∧
        .romRead start (.memory address) size = segment.copyRead off := by
  rw [Segment.faultEvents, Segment.Copied]
  by_cases accepted : segment.Sized flash off ∧ segment.dataLen % 4 = 0
  · by_cases addrAligned : segment.loadAddr % 4 = 0
    · simp [accepted, addrAligned, Segment.headerRead]
    · simp [accepted, addrAligned, Segment.headerRead]
  · rw [if_neg accepted]
    constructor
    · intro member
      simp [Segment.headerRead] at member
    · rintro ⟨⟨sized, lenAligned, _⟩, _⟩
      exact (accepted ⟨sized, lenAligned⟩).elim

theorem copy_mem_loadWalk_iff {count index rel : Nat} :
    .romRead start (.memory address) size ∈
        ((loadWalk count index (off + UInt32.ofNat rel)).run flash).trace ↔
      ∃ segment ∈ copiedSegments flash off
          (segmentTable flash off count rel),
        .romRead start (.memory address) size = segment.copyRead off := by
  induction count generalizing index rel with
  | zero => simp [loadWalk, segmentTable, copiedSegments]
  | succ count induction =>
      by_cases loaded : (segmentAt flash off rel).Loaded flash off
      · have copied := loaded.1
        rw [run_loadWalk_cons_of_loaded loaded]
        simp only [segmentTable, copiedSegments, copied, loaded, if_true,
          List.mem_append, induction, List.mem_cons, or_and_right,
          exists_or, exists_eq_left]
        simp [Segment.loadEvents, Segment.headerRead]
      · obtain ⟨error, fails⟩ := Segment.exists_loadFails loaded
        rw [run_loadWalk_cons_of_fails count index fails]
        simp only [copy_mem_faultEvents_iff, segmentTable, copiedSegments,
          loaded, if_false]
        by_cases copied : (segmentAt flash off rel).Copied flash off
        · simp [copied]
        · simp [copied]

/-- A boot copies only after the header and the gate have let the image
pass. -/
theorem copy_mem_bootImage_iff {sha : Sha256} :
    .romRead start (.memory address) size ∈
        ((bootImage sha off).run flash).trace ↔
      ∃ header, ((readHeader off).run flash).result = .ok header ∧
        ((verifyGate sha off header).run flash).result = .ok () ∧
        ∃ segment ∈ copiedSegments flash off
            (imageSegments flash off header),
          .romRead start (.memory address) size =
            segment.copyRead off := by
  have header : .romRead start (.memory address) size ∉
      ((readHeader off).run flash).trace := by
    intro member
    cases emits_readHeader flash off _ member
  have gate (header : ImageHeader) :
      .romRead start (.memory address) size ∉
        ((verifyGate sha off header).run flash).trace := by
    intro member
    cases emits_verifyGate flash sha off header _ member
  have load (header : ImageHeader) :
      .romRead start (.memory address) size ∈
          ((loadSegments off header).run flash).trace ↔ _ :=
    copy_mem_loadWalk_iff
  simp only [bootImage, Traced.mem_trace_bind_iff,
    Traced.result_mapError_eq_ok_iff, Traced.trace_mapError, header, gate,
    load, false_or, Traced.run_pure, List.not_mem_nil, and_false,
    exists_false, or_false]
  constructor
  · rintro ⟨header, headerRead, _, passed, copied⟩
    exact ⟨header, headerRead, passed, copied⟩
  · rintro ⟨header, headerRead, passed, copied⟩
    exact ⟨header, headerRead, (), passed, copied⟩

end Copies

/-! ## The region -/

/-- `RAM` in `memory.x`: code, data and stack of the bootloader. -/
def bootloaderRegion : Set Nat := Set.Ico 0x4FF20000 0x4FF30000

/-- The memory a segment is copied to. -/
def loadRange (loadAddr : UInt32) (len : Nat) : Set Nat :=
  Set.Ico loadAddr.toNat (loadAddr.toNat + len)

def SparesBootloader (loadAddr : UInt32) (len : Nat) : Prop :=
  Disjoint (loadRange loadAddr len) bootloaderRegion

theorem sparesBootloader_iff {loadAddr : UInt32} {len : Nat} :
    SparesBootloader loadAddr len ↔
      len = 0 ∨ loadAddr.toNat + len ≤ 0x4FF20000 ∨
        0x4FF30000 ≤ loadAddr.toNat := by
  rw [SparesBootloader, loadRange, bootloaderRegion, Set.Ico_disjoint_Ico]
  omega

/-- All copies of a boot stay out of the bootloader's region exactly when
every segment that the picked image makes the loader reach does. -/
theorem copies_spare_bootloader_iff (P : Platform) (resetCause : Cause)
    (flash : Flash) :
    (∀ start loadAddr len,
      BootEvent.image (.romRead start (.memory loadAddr) len) ∈
        (main P resetCause flash).events →
      SparesBootloader loadAddr len) ↔
    ∀ chosen outcome header,
      (bootPick P resetCause flash).result = .ok (chosen, outcome) →
      ((readHeader chosen.offset).run
        (bootPick P resetCause flash).flash).result = .ok header →
      ((verifyGate P.sha chosen.offset header).run
        (bootPick P resetCause flash).flash).result = .ok () →
      ∀ segment ∈ copiedSegments (bootPick P resetCause flash).flash
          chosen.offset (imageSegments (bootPick P resetCause flash).flash
            chosen.offset header),
        SparesBootloader segment.loadAddr segment.dataLen.toNat := by
  simp only [image_mem_main_iff, copy_mem_bootImage_iff]
  constructor
  · intro spared chosen outcome header picked headerRead passed segment
      reached
    exact spared _ _ _ ⟨chosen, outcome, picked, header, headerRead, passed,
      segment, reached, rfl⟩
  · rintro spared start loadAddr len ⟨chosen, outcome, picked, header,
      headerRead, passed, segment, reached, equality⟩
    cases equality
    exact spared chosen outcome header picked headerRead passed segment
      reached

/-- An image without a hash whose segment is linked to the start of the
bootloader. -/
def collidingFlash : Flash :=
  (Flash.erased.program 0x20000
    [0xE9, 1, 2, 0x1F, 0x00, 0x00, 0xF2, 0x4F, 0xEE, 0, 0, 0, 18, 0, 0, 0,
      0, 0, 0, 0, 0, 0, 0, 0, 0x00, 0x00, 0xF2, 0x4F, 4, 0, 0, 0,
      0x13, 0, 0, 0, 0, 0, 0, 0, 0, 0, 0, 0, 0, 0, 0, 0xFC]).withTable
    slotTable

theorem bootPick_collidingFlash :
    (bootPick (standIn sampleSha) .powerOn collidingFlash).result =
      .ok (slotPartition .a, .otaFresh) := by
  apply bootPick_standIn
  · decide
  · rfl
  · decide
  · decide
  · decide
  · decide
  · decide

theorem copy_hits_bootloader :
    BootEvent.image (.romRead 0x20020 (.memory 0x4FF20000) 4) ∈
        (main (standIn sampleSha) .powerOn collidingFlash).events ∧
      ¬ SparesBootloader 0x4FF20000 4 := by
  constructor
  · apply (image_mem_main_iff _).mpr
    exact ⟨slotPartition .a, .otaFresh, bootPick_collidingFlash,
      by decide +kernel⟩
  · rw [sparesBootloader_iff]
    decide

end MiniBootloader
