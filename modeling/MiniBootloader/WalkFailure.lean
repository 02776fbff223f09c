import MiniBootloader.Verify

/-!
# Where the walks over the segment table end

A walk that does not get to the end of the table ends at the first segment
it does not get past.  Everything it did until then it did for the segments
before that one.
-/

namespace MiniBootloader

/-- Either every element is accepted, or there is a first one that is
not. -/
theorem forall_or_exists_first {A : Type} (accepted : A → Prop)
    (list : List A) :
    (∀ value ∈ list, accepted value) ∨
      ∃ before failing after, list = before ++ failing :: after ∧
        (∀ value ∈ before, accepted value) ∧ ¬ accepted failing := by
  induction list with
  | nil =>
      left
      intro value member
      cases member
  | cons head tail ih =>
      by_cases good : accepted head
      · rcases ih with all | ⟨before, failing, after, split, clean, bad⟩
        · left
          exact List.forall_mem_cons.mpr ⟨good, all⟩
        · right
          exact ⟨head :: before, failing, after, by rw [split]; rfl,
            List.forall_mem_cons.mpr ⟨good, clean⟩, bad⟩
      · right
        exact ⟨[], head, tail, rfl, List.forall_mem_nil _, good⟩

section Split

variable {flash : Flash} {off : UInt32} {count rel : Nat}

/-- A table that has a first segment is the table of one segment more. -/
theorem segmentTable_eq_cons {first : Segment} {rest : List Segment}
    (table : segmentTable flash off count rel = first :: rest) :
    ∃ fewer, count = fewer + 1 ∧ first = segmentAt flash off rel ∧
      segmentTable flash off fewer
        (rel + (segmentAt flash off rel).extent) = rest := by
  cases count with
  | zero => cases table
  | succ fewer =>
      rw [segmentTable] at table
      obtain ⟨head, tail⟩ := List.cons.inj table
      exact ⟨fewer, rfl, head.symm, tail⟩

/-- The segments in front of one make a table of their own. -/
theorem segmentTable_take {before rest : List Segment}
    (table : segmentTable flash off count rel = before ++ rest) :
    segmentTable flash off before.length rel = before := by
  induction before generalizing count rel with
  | nil => rfl
  | cons first before ih =>
      obtain ⟨fewer, rfl, rfl, tail⟩ := segmentTable_eq_cons table
      rw [List.length_cons, segmentTable, ih tail]

theorem run_sizeWalk_of_fails {total : UInt32} {error : AppLoadError}
    {before after : List Segment} {failing : Segment}
    (table : segmentTable flash off count rel =
      before ++ failing :: after)
    (sized : ∀ segment ∈ before, segment.Sized flash off)
    (fails : failing.SizeFails flash off error) :
    (sizeWalk count total (off + UInt32.ofNat rel)).run flash =
      ⟨(before ++ [failing]).map (Segment.headerRead off),
        .error error⟩ := by
  induction before generalizing count rel total with
  | nil =>
      obtain ⟨fewer, rfl, rfl, _⟩ := segmentTable_eq_cons table
      rw [run_sizeWalk_cons_of_fails fails]
      rfl
  | cons first before ih =>
      obtain ⟨fewer, rfl, rfl, tail⟩ := segmentTable_eq_cons table
      rw [List.forall_mem_cons] at sized
      rw [run_sizeWalk_cons_of_sized sized.1, ih tail sized.2]
      rfl

theorem run_loadWalk_of_fails {index : Nat} {error : AppLoadError}
    {before after : List Segment} {failing : Segment}
    (table : segmentTable flash off count rel =
      before ++ failing :: after)
    (loaded : ∀ segment ∈ before, segment.Loaded flash off)
    (fails : failing.LoadFails flash off error) :
    (loadWalk count index (off + UInt32.ofNat rel)).run flash =
      ⟨loadTableEvents flash off index before ++
          failing.faultEvents flash off (index + before.length),
        .error error⟩ := by
  induction before generalizing count rel index with
  | nil =>
      obtain ⟨fewer, rfl, rfl, _⟩ := segmentTable_eq_cons table
      rw [run_loadWalk_cons_of_fails fewer index fails]
      rfl
  | cons first before ih =>
      obtain ⟨fewer, rfl, rfl, tail⟩ := segmentTable_eq_cons table
      rw [List.forall_mem_cons] at loaded
      have position : index + (before.length + 1) =
          index + 1 + before.length := by omega
      rw [run_loadWalk_cons_of_loaded loaded.1, ih tail loaded.2,
        loadTableEvents, List.append_assoc, List.length_cons, position]

end Split

section Image

variable {flash : Flash} {off : UInt32} {header : ImageHeader}
  {error : AppLoadError} {before after : List Segment} {failing : Segment}

theorem result_computeImageTotalSize_of_fails
    (table : imageSegments flash off header = before ++ failing :: after)
    (sized : ∀ segment ∈ before, segment.Sized flash off)
    (fails : failing.SizeFails flash off error) :
    ((computeImageTotalSize off header).run flash).result =
      .error error := by
  have walk : (sizeWalk header.segmentCount.toNat imageHeaderSize
      (off + imageHeaderSize)).run flash = _ :=
    run_sizeWalk_of_fails table sized fails
  rw [computeImageTotalSize, Traced.run_bind_of_error
    (congrArg Outcome.result walk)]

theorem run_loadSegments_of_fails
    (table : imageSegments flash off header = before ++ failing :: after)
    (loaded : ∀ segment ∈ before, segment.Loaded flash off)
    (fails : failing.LoadFails flash off error) :
    (loadSegments off header).run flash =
      ⟨loadTableEvents flash off 0 before ++
          failing.faultEvents flash off before.length,
        .error error⟩ := by
  have walk : (loadWalk header.segmentCount.toNat 0 (off + 24)).run flash =
      _ := run_loadWalk_of_fails table loaded fails
  rw [loadSegments, walk, Nat.zero_add]

/-- An error of the size walk is that of the first segment it does not get
past. -/
theorem exists_of_result_computeImageTotalSize
    (failed : ((computeImageTotalSize off header).run flash).result =
      .error error) :
    ∃ before failing after,
      imageSegments flash off header = before ++ failing :: after ∧
      (∀ segment ∈ before, segment.Sized flash off) ∧
      failing.SizeFails flash off error := by
  rcases forall_or_exists_first (Segment.Sized flash off)
      (imageSegments flash off header) with
    sized | ⟨before, failing, after, table, sized, notSized⟩
  · rw [run_computeImageTotalSize_of_sized sized] at failed
    cases failed
  · obtain ⟨raised, fails⟩ := Segment.exists_sizeFails notSized
    rw [result_computeImageTotalSize_of_fails table sized fails] at failed
    cases failed
    exact ⟨before, failing, after, table, sized, fails⟩

/-- An error of the loader is that of the first segment it does not get
past. -/
theorem exists_of_result_loadSegments
    (failed : ((loadSegments off header).run flash).result =
      .error error) :
    ∃ before failing after,
      imageSegments flash off header = before ++ failing :: after ∧
      (∀ segment ∈ before, segment.Loaded flash off) ∧
      failing.LoadFails flash off error := by
  rcases forall_or_exists_first (Segment.Loaded flash off)
      (imageSegments flash off header) with
    loaded | ⟨before, failing, after, table, loaded, notLoaded⟩
  · rw [run_loadSegments_of_loaded loaded] at failed
    cases failed
  · obtain ⟨raised, fails⟩ := Segment.exists_loadFails notLoaded
    rw [run_loadSegments_of_fails table loaded fails] at failed
    cases failed
    exact ⟨before, failing, after, table, loaded, fails⟩

end Image

end MiniBootloader
