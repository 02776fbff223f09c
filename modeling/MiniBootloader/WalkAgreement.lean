import MiniBootloader.WalkFailure

/-!
# The size walk and the loader agree

The two walks are copies of one loop that check different things.  Both are
described by the same table, so what one of them finds on it says what the
other finds: the loader makes every check of the size walk, in the same
order, and adds its own after them.
-/

namespace MiniBootloader

open Words

namespace Segment

/-- What the loader asks of a segment beyond the size walk. -/
def Clean (flash : Flash) (off : UInt32) (segment : Segment) : Prop :=
  segment.dataLen % 4 = 0 ∧ segment.loadAddr % 4 = 0 ∧
    flash.Readable (segment.dataPos off) segment.dataLen.toNat

theorem loaded_iff {flash : Flash} {off : UInt32} {segment : Segment} :
    segment.Loaded flash off ↔
      segment.Sized flash off ∧ segment.Clean flash off := by
  rw [Loaded, Copied, Clean, and_assoc, and_assoc]

end Segment

section Reported

variable {flash : Flash} {off : UInt32}

/-- The reported lengths add up to the end of the table. -/
theorem tableEnd_eq_reports (rel index : Nat) (table : List Segment) :
    tableEnd rel table = rel +
      ((segmentReports (loadTableEvents flash off index table)).map
        fun report => 8 + report.2.2.toNat).sum := by
  have lengths : ((segmentReports (loadTableEvents flash off index
      table)).map fun report => 8 + report.2.2.toNat) =
        table.map Segment.extent := by
    rw [segmentReports_loadTableEvents]
    apply List.ext_getElem
    · simp
    · intro position inReports inTable
      simp [Segment.extent]
  rw [lengths, tableEnd]

end Reported

section Agreement

variable {flash : Flash} {off : UInt32} {header : ImageHeader}

/-- What loads has a size, and it is computed from the reported
segments. -/
theorem size_of_loaded
    (success : ((loadSegments off header).run flash).result = .ok ()) :
    ∃ total,
      ((computeImageTotalSize off header).run flash).result = .ok total ∧
      total.toNat = roundUp16 (24 +
        ((segmentReports ((loadSegments off header).run flash).trace).map
          fun report => 8 + report.2.2.toNat).sum + 1) +
            if header.hashAppended then 32 else 0 := by
  have loaded := loaded_of_result_loadSegments success
  have sized : ∀ segment ∈ imageSegments flash off header,
      segment.Sized flash off := by
    intro segment member
    exact (Segment.loaded_iff.mp (loaded segment member)).1
  refine ⟨_, result_computeImageTotalSize_eq_ok_iff.mpr ⟨sized, rfl⟩, ?_⟩
  rw [toNat_imageSize sized, payloadLen, run_loadSegments_of_loaded loaded,
    tableEnd_eq_reports 24 0]

/-- The loader fails where the size walk fails or before, and with the same
error when the segments in front are clean. -/
theorem load_fails_of_size_fails {error : AppLoadError}
    {before after : List Segment} {failing : Segment}
    (table : imageSegments flash off header = before ++ failing :: after)
    (sized : ∀ segment ∈ before, segment.Sized flash off)
    (fails : failing.SizeFails flash off error) :
    ∃ loadError,
      ((loadSegments off header).run flash).result = .error loadError ∧
      ((∀ segment ∈ before, segment.Clean flash off) →
        loadError = error) := by
  by_cases clean : ∀ segment ∈ before, segment.Clean flash off
  · have loaded : ∀ segment ∈ before, segment.Loaded flash off := by
      intro segment member
      exact Segment.loaded_iff.mpr
        ⟨sized segment member, clean segment member⟩
    refine ⟨error, ?_, fun _ => rfl⟩
    rw [run_loadSegments_of_fails table loaded (.size fails)]
  · cases result : ((loadSegments off header).run flash).result with
    | error loadError =>
        exact ⟨loadError, rfl, fun allClean => absurd allClean clean⟩
    | ok done =>
        have loaded := loaded_of_result_loadSegments result
        have notSized := fails.not_sized
        have member : failing ∈ imageSegments flash off header := by
          rw [table]
          exact List.mem_append_right _ List.mem_cons_self
        exact absurd (loaded failing member).1.1 notSized

/-- The two walks accept the same images up to the loader's own checks, and
fail in the same place. -/
theorem walks_agree (flash : Flash) (off : UInt32) (header : ImageHeader) :
    (((loadSegments off header).run flash).result = .ok () →
      ∃ total,
        ((computeImageTotalSize off header).run flash).result = .ok total ∧
        total.toNat = roundUp16 (24 +
          ((segmentReports ((loadSegments off header).run flash).trace).map
            fun report => 8 + report.2.2.toNat).sum + 1) +
              if header.hashAppended then 32 else 0) ∧
    (∀ error,
      ((computeImageTotalSize off header).run flash).result =
          .error error →
        ∃ loadError before failing after,
          ((loadSegments off header).run flash).result =
            .error loadError ∧
          imageSegments flash off header = before ++ failing :: after ∧
          (∀ segment ∈ before, segment.Sized flash off) ∧
          failing.SizeFails flash off error ∧
          ((∀ segment ∈ before, segment.Clean flash off) →
            loadError = error)) ∧
    ∀ total loadError,
      ((computeImageTotalSize off header).run flash).result = .ok total →
      ((loadSegments off header).run flash).result = .error loadError →
        ∃ before failing after,
          imageSegments flash off header = before ++ failing :: after ∧
          (∀ segment ∈ before, segment.Clean flash off) ∧
          failing.CopyFails flash off loadError := by
  refine ⟨size_of_loaded, ?_, ?_⟩
  · intro error failed
    obtain ⟨before, failing, after, table, sized, fails⟩ :=
      exists_of_result_computeImageTotalSize failed
    obtain ⟨loadError, loadFailed, same⟩ :=
      load_fails_of_size_fails table sized fails
    exact ⟨loadError, before, failing, after, loadFailed, table, sized,
      fails, same⟩
  · intro total loadError sizeResult failed
    obtain ⟨before, failing, after, table, loaded, fails⟩ :=
      exists_of_result_loadSegments failed
    obtain ⟨sized, _⟩ :=
      result_computeImageTotalSize_eq_ok_iff.mp sizeResult
    refine ⟨before, failing, after, table, ?_, ?_⟩
    · intro segment member
      exact (Segment.loaded_iff.mp (loaded segment member)).2
    · cases fails with
      | copy _ fails => exact fails
      | size fails =>
          have member : failing ∈ imageSegments flash off header := by
            rw [table]
            exact List.mem_append_right _ List.mem_cons_self
          exact absurd (sized failing member) fails.not_sized

end Agreement

end MiniBootloader
