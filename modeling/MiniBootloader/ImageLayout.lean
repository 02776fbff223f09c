import MiniBootloader.App

/-!
# The segment table of an image

The image format says where each segment header lies: the first one 24 bytes
into the image, each next one after the data of the one before.  The table
of an offset is read off the flash by this rule alone, with positions counted
from the start of the image, and both walks of `App` are then described by
it.  Positions of the code and positions of the table agree at every step,
so the two walks stay in step although they advance differently.
-/

namespace MiniBootloader

open Words

/-- A segment header found `rel` bytes into an image. -/
structure Segment where
  rel : Nat
  loadAddr : UInt32
  dataLen : UInt32
  deriving DecidableEq, Repr

namespace Segment

/-- Bytes the header and the data take in flash. -/
def extent (segment : Segment) : Nat := 8 + segment.dataLen.toNat

def headerPos (off : UInt32) (segment : Segment) : UInt32 :=
  off + UInt32.ofNat segment.rel

def dataPos (off : UInt32) (segment : Segment) : UInt32 :=
  off + UInt32.ofNat (segment.rel + 8)

/-- The size walk gets past this segment. -/
def Sized (flash : Flash) (off : UInt32) (segment : Segment) : Prop :=
  flash.Readable (segment.headerPos off) 8 ∧
    segment.dataLen ≤ maxSegmentLen

/-- The loader hands this segment to the ROM to be copied. -/
def Copied (flash : Flash) (off : UInt32) (segment : Segment) : Prop :=
  segment.Sized flash off ∧ segment.dataLen % 4 = 0 ∧
    segment.loadAddr % 4 = 0

/-- The loader gets past this segment. -/
def Loaded (flash : Flash) (off : UInt32) (segment : Segment) : Prop :=
  segment.Copied flash off ∧
    flash.Readable (segment.dataPos off) segment.dataLen.toNat

instance (flash : Flash) (off : UInt32) (segment : Segment) :
    Decidable (segment.Sized flash off) :=
  inferInstanceAs (Decidable (_ ∧ _))

instance (flash : Flash) (off : UInt32) (segment : Segment) :
    Decidable (segment.Copied flash off) :=
  inferInstanceAs (Decidable (_ ∧ _))

instance (flash : Flash) (off : UInt32) (segment : Segment) :
    Decidable (segment.Loaded flash off) :=
  inferInstanceAs (Decidable (_ ∧ _))

/-- The ROM read of the segment header. -/
def headerRead (off : UInt32) (segment : Segment) : Event :=
  .romRead (segment.headerPos off) .words 8

/-- The ROM read that copies the segment data. -/
def copyRead (off : UInt32) (segment : Segment) : Event :=
  .romRead (segment.dataPos off) (.memory segment.loadAddr)
    segment.dataLen.toNat

def data (flash : Flash) (off : UInt32) (segment : Segment) : List UInt8 :=
  (flash.slice (segment.dataPos off) segment.dataLen.toNat).toList

/-- Everything the loader does for a segment it gets past. -/
def loadEvents (flash : Flash) (off : UInt32) (index : Nat)
    (segment : Segment) : List Event :=
  [segment.headerRead off,
    .onSegment index segment.loadAddr segment.dataLen,
    segment.copyRead off,
    .memWrite segment.loadAddr (segment.data flash off)]

/-- The error the size walk ends with at this segment. -/
inductive SizeFails (flash : Flash) (off : UInt32) (segment : Segment) :
    AppLoadError → Prop where
  | header :
      ¬ flash.Readable (segment.headerPos off) 8 →
      SizeFails flash off segment
        (.flash (.rom (flash.status (segment.headerPos off)
          (Int32.ofNat 8))))
  | tooLarge :
      flash.Readable (segment.headerPos off) 8 →
      segment.dataLen > maxSegmentLen →
      SizeFails flash off segment (.segmentTooLarge segment.dataLen)

/-- The error the loader ends with at a segment the size walk gets past. -/
inductive CopyFails (flash : Flash) (off : UInt32) (segment : Segment) :
    AppLoadError → Prop where
  | unaligned :
      segment.dataLen % 4 ≠ 0 →
      CopyFails flash off segment (.unalignedSegment segment.dataLen)
  | misaligned :
      segment.dataLen % 4 = 0 →
      segment.loadAddr % 4 ≠ 0 →
      CopyFails flash off segment (.flash .unaligned)
  | data :
      segment.dataLen % 4 = 0 →
      segment.loadAddr % 4 = 0 →
      ¬ flash.Readable (segment.dataPos off) segment.dataLen.toNat →
      CopyFails flash off segment
        (.flash (.rom (flash.status (segment.dataPos off)
          (Int32.ofNat segment.dataLen.toNat))))

/-- The error the loader ends with at this segment: the first of its checks
that fails. -/
inductive LoadFails (flash : Flash) (off : UInt32) (segment : Segment) :
    AppLoadError → Prop where
  | size {error : AppLoadError} :
      segment.SizeFails flash off error →
      LoadFails flash off segment error
  | copy {error : AppLoadError} :
      segment.Sized flash off →
      segment.CopyFails flash off error →
      LoadFails flash off segment error

/-- What the loader does with a segment it does not get past: it reports
the segment once the length is accepted, and calls the ROM once the load
address is. -/
def faultEvents (flash : Flash) (off : UInt32) (index : Nat)
    (segment : Segment) : List Event :=
  segment.headerRead off ::
    if segment.Sized flash off ∧ segment.dataLen % 4 = 0 then
      .onSegment index segment.loadAddr segment.dataLen ::
        if segment.loadAddr % 4 = 0 then [segment.copyRead off] else []
    else
      []

section Fails

variable {flash : Flash} {off : UInt32} {segment : Segment}
  {error : AppLoadError}

theorem SizeFails.not_sized (fails : segment.SizeFails flash off error) :
    ¬ segment.Sized flash off := by
  rintro ⟨readable, small⟩
  cases fails with
  | header failed => exact failed readable
  | tooLarge _ large => exact UInt32.not_lt.mpr small large

theorem exists_sizeFails (notSized : ¬ segment.Sized flash off) :
    ∃ error, segment.SizeFails flash off error := by
  by_cases readable : flash.Readable (segment.headerPos off) 8
  · have large : segment.dataLen > maxSegmentLen := by
      apply UInt32.not_le.mp
      intro small
      exact notSized ⟨readable, small⟩
    exact ⟨_, .tooLarge readable large⟩
  · exact ⟨_, .header readable⟩

theorem exists_loadFails (notLoaded : ¬ segment.Loaded flash off) :
    ∃ error, segment.LoadFails flash off error := by
  by_cases sized : segment.Sized flash off
  · by_cases lenAligned : segment.dataLen % 4 = 0
    · by_cases addrAligned : segment.loadAddr % 4 = 0
      · have failed : ¬ flash.Readable (segment.dataPos off)
            segment.dataLen.toNat := by
          intro readable
          exact notLoaded ⟨⟨sized, lenAligned, addrAligned⟩, readable⟩
        exact ⟨_, .copy sized (.data lenAligned addrAligned failed)⟩
      · exact ⟨_, .copy sized (.misaligned lenAligned addrAligned)⟩
    · exact ⟨_, .copy sized (.unaligned lenAligned)⟩
  · obtain ⟨error, fails⟩ := exists_sizeFails sized
    exact ⟨error, .size fails⟩

end Fails

end Segment

/-- The segment header found `rel` bytes into the image at `off`. -/
def segmentAt (flash : Flash) (off : UInt32) (rel : Nat) : Segment :=
  { rel := rel
    loadAddr := flash.word (off + UInt32.ofNat rel)
    dataLen := flash.word (off + UInt32.ofNat rel + 4) }

/-- The next `count` segments from `rel` on. -/
def segmentTable (flash : Flash) (off : UInt32) : Nat → Nat → List Segment
  | 0, _ => []
  | count + 1, rel =>
      segmentAt flash off rel ::
        segmentTable flash off count
          (rel + (segmentAt flash off rel).extent)

/-- Where the byte after the last segment lies. -/
def tableEnd (rel : Nat) (table : List Segment) : Nat :=
  rel + (table.map Segment.extent).sum

@[simp] theorem tableEnd_nil (rel : Nat) : tableEnd rel [] = rel := rfl

@[simp] theorem tableEnd_cons (rel : Nat) (segment : Segment)
    (table : List Segment) :
    tableEnd rel (segment :: table) =
      tableEnd (rel + segment.extent) table := by
  simp [tableEnd, Nat.add_assoc]

theorem le_tableEnd (rel : Nat) (table : List Segment) :
    rel ≤ tableEnd rel table :=
  Nat.le_add_right rel _

@[simp] theorem length_segmentTable (flash : Flash) (off : UInt32)
    (count rel : Nat) :
    (segmentTable flash off count rel).length = count := by
  induction count generalizing rel with
  | zero => rfl
  | succ count induction => simp [segmentTable, induction]

/-- Every segment lies between the start and the end of its table. -/
theorem segment_within_table {flash : Flash} {off : UInt32}
    {count rel : Nat} {segment : Segment}
    (member : segment ∈ segmentTable flash off count rel) :
    rel ≤ segment.rel ∧
      segment.rel + segment.extent ≤
        tableEnd rel (segmentTable flash off count rel) := by
  induction count generalizing rel with
  | zero => simp [segmentTable] at member
  | succ count induction =>
      simp only [segmentTable, List.mem_cons] at member
      simp only [segmentTable, tableEnd_cons]
      rcases member with rfl | later
      · exact ⟨Nat.le_refl rel, le_tableEnd _ _⟩
      · obtain ⟨lower, upper⟩ := induction later
        exact ⟨Nat.le_trans (Nat.le_add_right rel _) lower, upper⟩

/-- A table whose lengths passed the limit is short: each segment takes at
most 8 bytes and 8 MB. -/
theorem tableEnd_le {flash : Flash} {off : UInt32} {count rel : Nat}
    (sized : ∀ segment ∈ segmentTable flash off count rel,
      segment.dataLen ≤ maxSegmentLen) :
    tableEnd rel (segmentTable flash off count rel) ≤
      rel + count * 8388616 := by
  induction count generalizing rel with
  | zero => simp [segmentTable]
  | succ count induction =>
      simp only [segmentTable, List.mem_cons, forall_eq_or_imp] at sized
      simp only [segmentTable, tableEnd_cons]
      have tailBound := induction sized.2
      have headBound : (segmentAt flash off rel).dataLen.toNat ≤ 8388608 :=
        UInt32.le_iff_toNat_le.mp sized.1
      simp only [Segment.extent] at tailBound ⊢
      omega

/-! ## Positions of the code and of the table -/

private theorem pos_advance (off dataLen : UInt32) (rel : Nat) :
    off + UInt32.ofNat rel + (8 + dataLen) =
      off + UInt32.ofNat (rel + (8 + dataLen.toNat)) := by
  rw [UInt32.ofNat_add, UInt32.ofNat_add, UInt32.ofNat_toNat,
    UInt32.add_assoc]
  rfl

private theorem total_advance (dataLen : UInt32) (rel : Nat) :
    UInt32.ofNat rel + (8 + dataLen) =
      UInt32.ofNat (rel + (8 + dataLen.toNat)) := by
  rw [UInt32.ofNat_add, UInt32.ofNat_add, UInt32.ofNat_toNat]
  rfl

/-! ## The size walk along the table -/

section SizeWalk

variable {flash : Flash} {off : UInt32}

theorem run_sizeWalk_cons_of_sized {count rel : Nat} {total : UInt32}
    (sized : (segmentAt flash off rel).Sized flash off) :
    (sizeWalk (count + 1) total (off + UInt32.ofNat rel)).run flash =
      let rest := (sizeWalk count
        (total + (8 + (segmentAt flash off rel).dataLen))
        (off + UInt32.ofNat (rel +
          (segmentAt flash off rel).extent))).run flash
      ⟨(segmentAt flash off rel).headerRead off :: rest.trace,
        rest.result⟩ := by
  have header := run_readSegmentHeader_of_readable sized.1
  have small : ¬ (segmentAt flash off rel).dataLen > maxSegmentLen :=
    UInt32.not_lt.mpr sized.2
  simp only [Segment.headerPos, segmentAt] at header small
  simp only [sizeWalk, Traced.run_bind, header, small, if_false,
    segmentHeaderSize, pos_advance, Segment.extent, segmentAt,
    Segment.headerRead, Segment.headerPos, List.singleton_append]

theorem run_sizeWalk_cons_of_fails {count rel : Nat} {total : UInt32}
    {error : AppLoadError}
    (fails : (segmentAt flash off rel).SizeFails flash off error) :
    (sizeWalk (count + 1) total (off + UInt32.ofNat rel)).run flash =
      ⟨[(segmentAt flash off rel).headerRead off], .error error⟩ := by
  cases fails with
  | header failed =>
      have header := run_readSegmentHeader_of_not_readable failed
      simp only [Segment.headerPos, segmentAt] at header
      simp [sizeWalk, Traced.run_bind, header, segmentAt,
        Segment.headerRead, Segment.headerPos]
  | tooLarge readable large =>
      have header := run_readSegmentHeader_of_readable readable
      simp only [Segment.headerPos, segmentAt] at header large
      simp [sizeWalk, Traced.run_bind, header, large, segmentAt,
        Segment.headerRead, Segment.headerPos]

theorem result_sizeWalk_cons_of_not_sized {count rel : Nat}
    {total value : UInt32}
    (notSized : ¬ (segmentAt flash off rel).Sized flash off) :
    ((sizeWalk (count + 1) total
      (off + UInt32.ofNat rel)).run flash).result ≠ .ok value := by
  obtain ⟨error, fails⟩ := Segment.exists_sizeFails notSized
  rw [run_sizeWalk_cons_of_fails fails]
  intro success
  cases success

/-- On a table that passes, the size walk reads the headers in order and
returns the end of the table. -/
theorem run_sizeWalk_of_sized {count rel : Nat}
    (sized : ∀ segment ∈ segmentTable flash off count rel,
      segment.Sized flash off) :
    (sizeWalk count (UInt32.ofNat rel)
        (off + UInt32.ofNat rel)).run flash =
      ⟨(segmentTable flash off count rel).map (Segment.headerRead off),
        .ok (UInt32.ofNat
          (tableEnd rel (segmentTable flash off count rel)))⟩ := by
  induction count generalizing rel with
  | zero => rfl
  | succ count induction =>
      simp only [segmentTable, List.mem_cons, forall_eq_or_imp] at sized
      have tail := induction sized.2
      rw [run_sizeWalk_cons_of_sized sized.1, total_advance]
      simp only [segmentTable, tableEnd_cons, List.map_cons]
      rw [show rel + (8 + (segmentAt flash off rel).dataLen.toNat) =
        rel + (segmentAt flash off rel).extent from rfl, tail]

theorem sized_of_result_sizeWalk {count rel : Nat} {total value : UInt32}
    (success : ((sizeWalk count total
      (off + UInt32.ofNat rel)).run flash).result = .ok value) :
    ∀ segment ∈ segmentTable flash off count rel,
      segment.Sized flash off := by
  induction count generalizing rel total with
  | zero => simp [segmentTable]
  | succ count induction =>
      by_cases sized : (segmentAt flash off rel).Sized flash off
      · rw [run_sizeWalk_cons_of_sized sized] at success
        have tail := induction success
        simp only [segmentTable, List.mem_cons, forall_eq_or_imp]
        exact ⟨sized, tail⟩
      · exact (result_sizeWalk_cons_of_not_sized sized success).elim

end SizeWalk

/-! ## The loader along the table -/

section LoadWalk

variable {flash : Flash} {off : UInt32}

private theorem dataPos_eq (rel : Nat) :
    off + UInt32.ofNat rel + 8 = off + UInt32.ofNat (rel + 8) :=
  add_ofNat_add_ofNat off rel 8

private theorem misaligned_iff (loadAddr : UInt32) :
    (Dest.memory loadAddr).misaligned = true ↔ ¬ loadAddr % 4 = 0 := by
  simp [Dest.misaligned]

private theorem toNat_mod4 {dataLen : UInt32} (aligned : dataLen % 4 = 0) :
    dataLen.toNat % 4 = 0 := by
  have := congrArg UInt32.toNat aligned
  simpa using this

theorem run_loadWalk_cons_of_loaded {count rel index : Nat}
    (loaded : (segmentAt flash off rel).Loaded flash off) :
    (loadWalk (count + 1) index (off + UInt32.ofNat rel)).run flash =
      let rest := (loadWalk count (index + 1)
        (off + UInt32.ofNat (rel +
          (segmentAt flash off rel).extent))).run flash
      ⟨(segmentAt flash off rel).loadEvents flash off index ++ rest.trace,
        rest.result⟩ := by
  obtain ⟨⟨⟨readable, limit⟩, lenAligned, addrAligned⟩, dataReadable⟩ :=
    loaded
  have header := run_readSegmentHeader_of_readable readable
  have small : ¬ (segmentAt flash off rel).dataLen > maxSegmentLen :=
    UInt32.not_lt.mpr limit
  have destAligned : (Dest.memory
      (segmentAt flash off rel).loadAddr).misaligned = false := by
    simp [Dest.misaligned, addrAligned]
  have dataRead := run_read_of_readable (toNat_mod4 lenAligned)
    destAligned dataReadable
  have next : off + UInt32.ofNat (rel + 8) +
      (segmentAt flash off rel).dataLen =
        off + UInt32.ofNat (rel + (8 +
          (segmentAt flash off rel).dataLen.toNat)) := by
    rw [← dataPos_eq, UInt32.add_assoc, pos_advance]
  simp only [Segment.headerPos, segmentAt] at header small lenAligned
  simp only [Segment.dataPos, segmentAt] at dataRead next
  simp only [loadWalk, Traced.run_bind, header, small, if_false, dataPos_eq,
    lenAligned, ne_eq, not_true_eq_false, Traced.run_emit,
    Traced.run_mapError, dataRead, Except.mapError, next, segmentAt,
    Segment.loadEvents, Segment.headerRead, Segment.copyRead,
    Segment.headerPos, Segment.dataPos, Segment.data, Segment.extent,
    writeEvents]
  simp

/-- A segment the loader does not get past ends it with the first check
that fails. -/
theorem run_loadWalk_cons_of_fails (count index : Nat) {rel : Nat}
    {error : AppLoadError}
    (fails : (segmentAt flash off rel).LoadFails flash off error) :
    (loadWalk (count + 1) index (off + UInt32.ofNat rel)).run flash =
      ⟨(segmentAt flash off rel).faultEvents flash off index,
        .error error⟩ := by
  cases fails with
  | size fails =>
      rw [Segment.faultEvents, if_neg (fun sized => fails.not_sized sized.1)]
      cases fails with
      | header failed =>
          have header := run_readSegmentHeader_of_not_readable failed
          simp only [Segment.headerPos, segmentAt] at header
          simp [loadWalk, Traced.run_bind, header, segmentAt,
            Segment.headerRead, Segment.headerPos]
      | tooLarge readable large =>
          have header := run_readSegmentHeader_of_readable readable
          simp only [Segment.headerPos, segmentAt] at header large
          simp [loadWalk, Traced.run_bind, header, large, segmentAt,
            Segment.headerRead, Segment.headerPos]
  | copy sized fails =>
      have header := run_readSegmentHeader_of_readable sized.1
      have small : ¬ (segmentAt flash off rel).dataLen > maxSegmentLen :=
        UInt32.not_lt.mpr sized.2
      simp only [Segment.headerPos, segmentAt] at header small
      cases fails with
      | unaligned lenBad =>
          rw [Segment.faultEvents, if_neg (fun accepted => lenBad accepted.2)]
          simp only [segmentAt] at lenBad
          simp [loadWalk, Traced.run_bind, header, small, lenBad,
            segmentAt, Segment.headerRead, Segment.headerPos]
      | misaligned lenAligned addrBad =>
          have dataRead : (read ((segmentAt flash off rel).dataPos off)
              (.memory (segmentAt flash off rel).loadAddr)
              (segmentAt flash off rel).dataLen.toNat).run flash = _ :=
            run_read_of_misaligned _
              (.inr ((misaligned_iff _).mpr addrBad)) flash
          rw [Segment.faultEvents, if_pos ⟨sized, lenAligned⟩,
            if_neg addrBad]
          simp only [segmentAt, Segment.dataPos] at lenAligned dataRead
          simp only [loadWalk, Traced.run_bind, header, small, if_false,
            dataPos_eq, lenAligned, ne_eq, not_true_eq_false,
            Traced.run_emit, Traced.run_mapError, dataRead,
            Except.mapError, segmentAt, Segment.headerRead,
            Segment.headerPos]
          simp
      | data lenAligned addrAligned failed =>
          have destAligned : (Dest.memory
              (segmentAt flash off rel).loadAddr).misaligned = false := by
            simp [Dest.misaligned, addrAligned]
          have dataRead := run_read_of_not_readable
            (toNat_mod4 lenAligned) destAligned failed
          rw [Segment.faultEvents, if_pos ⟨sized, lenAligned⟩,
            if_pos addrAligned]
          simp only [segmentAt, Segment.dataPos] at lenAligned dataRead
          simp only [loadWalk, Traced.run_bind, header, small, if_false,
            dataPos_eq, lenAligned, ne_eq, not_true_eq_false,
            Traced.run_emit, Traced.run_mapError, dataRead,
            Except.mapError, segmentAt, Segment.headerRead,
            Segment.copyRead, Segment.headerPos, Segment.dataPos]
          simp

theorem loaded_of_result_loadWalk {count rel index : Nat}
    (success : ((loadWalk count index
      (off + UInt32.ofNat rel)).run flash).result = .ok ()) :
    ∀ segment ∈ segmentTable flash off count rel,
      segment.Loaded flash off := by
  induction count generalizing rel index with
  | zero => simp [segmentTable]
  | succ count induction =>
      by_cases loaded : (segmentAt flash off rel).Loaded flash off
      · rw [run_loadWalk_cons_of_loaded loaded] at success
        have tail := induction success
        simp only [segmentTable, List.mem_cons, forall_eq_or_imp]
        exact ⟨loaded, tail⟩
      · obtain ⟨error, fails⟩ := Segment.exists_loadFails loaded
        rw [run_loadWalk_cons_of_fails count index fails] at success
        cases success

/-- What the loader does on a table it gets past, segment by segment. -/
def loadTableEvents (flash : Flash) (off : UInt32) :
    Nat → List Segment → List Event
  | _, [] => []
  | index, segment :: table =>
      segment.loadEvents flash off index ++
        loadTableEvents flash off (index + 1) table

theorem run_loadWalk_of_loaded {count rel : Nat} (index : Nat)
    (loaded : ∀ segment ∈ segmentTable flash off count rel,
      segment.Loaded flash off) :
    (loadWalk count index (off + UInt32.ofNat rel)).run flash =
      ⟨loadTableEvents flash off index (segmentTable flash off count rel),
        .ok ()⟩ := by
  induction count generalizing rel index with
  | zero => rfl
  | succ count induction =>
      simp only [segmentTable, List.mem_cons, forall_eq_or_imp] at loaded
      have tail := induction (index + 1) loaded.2
      rw [run_loadWalk_cons_of_loaded loaded.1, tail]
      rfl

end LoadWalk

/-! ## The trace of the loader -/

/-- The loader reads the header and the data of each segment. -/
theorem romRead_mem_loadTableEvents {flash : Flash} {off : UInt32}
    {index : Nat} {table : List Segment}
    {start : UInt32} {dest : Dest} {size : Nat}
    (member : .romRead start dest size ∈
      loadTableEvents flash off index table) :
    ∃ segment ∈ table,
      .romRead start dest size = segment.headerRead off ∨
        .romRead start dest size = segment.copyRead off := by
  induction table generalizing index with
  | nil => cases member
  | cons segment table induction =>
      rcases List.mem_append.mp member with here | later
      · simp only [Segment.loadEvents, List.mem_cons, reduceCtorEq,
          List.not_mem_nil, or_false, false_or] at here
        exact ⟨segment, List.mem_cons_self, here⟩
      · obtain ⟨other, inTable, which⟩ := induction later
        exact ⟨other, List.mem_cons_of_mem _ inTable, which⟩

/-- The index, the load address and the length of every segment the loader
reports. -/
def segmentReports (trace : List Event) : List (Nat × UInt32 × UInt32) :=
  trace.filterMap fun event =>
    match event with
    | .onSegment index loadAddr dataLen => some (index, loadAddr, dataLen)
    | .romRead _ _ _ => none
    | .memWrite _ _ => none

theorem segmentReports_loadTableEvents (flash : Flash) (off : UInt32)
    (index : Nat) (table : List Segment) :
    segmentReports (loadTableEvents flash off index table) =
      table.mapIdx fun position segment =>
        (index + position, segment.loadAddr, segment.dataLen) := by
  induction table generalizing index with
  | nil => rfl
  | cons segment table ih =>
      have reports : segmentReports (loadTableEvents flash off index
          (segment :: table)) =
            (index, segment.loadAddr, segment.dataLen) ::
              segmentReports (loadTableEvents flash off (index + 1)
                table) := rfl
      have shift (position : Nat) :
          index + 1 + position = index + (position + 1) := by omega
      rw [reports, ih, List.mapIdx_cons]
      simp only [shift, Nat.add_zero]

end MiniBootloader
