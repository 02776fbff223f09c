import Mathlib.Data.Set.Function
import MiniBootloader.ImageReads

/-!
# Verified bytes are the executed bytes

Both results compare two runs.  The first fixes the bytes the check has
covered and varies everything else: header, segment headers and segment data
all come from the hashed range, so the boot does not change.  The second
varies the covered bytes: with the layout kept, both payloads have the same
length, so their digests are compared with the same appended one.
-/

namespace MiniBootloader

open Words

section Execution

variable {sha : Sha256} {flash : Flash} {off : UInt32}
  {header : ImageHeader}

/-- The reads of the image header and of the loader, which decide what is
executed, lie in the hashed payload. -/
theorem readsWithin_payload (flash : Flash) (off : UInt32)
    (header : ImageHeader) :
    ReadsWithin off (payloadLen flash off header)
      (.romRead off .words 24 ::
        loadTableEvents flash off 0 (imageSegments flash off header)) := by
  have tableInside := tableEnd_lt_payloadLen flash off header
  have headerInside := le_tableEnd 24 (imageSegments flash off header)
  have load := readsWithin_loadTableEvents flash off 0
    header.segmentCount.toNat 24
  have start := (readsWithin_header off).mono
    (Nat.le_trans headerInside (Nat.le_of_lt tableInside))
  exact start.append (load.mono (Nat.le_of_lt tableInside))

theorem readsWithin_bootReads (hashed : header.hashAppended = true) :
    ReadsWithin off (payloadLen flash off header + 32)
      (bootReads flash off header) := by
  have executed := (readsWithin_payload flash off header).mono
    (Nat.le_add_right _ 32)
  have check := readsWithin_checkReads flash off header
  intro start dest size member
  simp only [bootReads, gateReads, hashed, if_true, List.mem_cons,
    List.mem_append] at member
  rcases member with first | checked | copied
  · exact executed start dest size (List.mem_cons.mpr (.inl first))
  · exact check start dest size checked
  · exact executed start dest size (List.mem_cons.mpr (.inr copied))

/-- A hashed image that boots boots the same way wherever its window is the
same. -/
theorem run_bootImage_of_sameWindow {entry : UInt32}
    (headerRead : ((readHeader off).run flash).result = .ok header)
    (hashed : header.hashAppended = true)
    (booted : ((bootImage sha off).run flash).result = .ok entry)
    {flash' : Flash}
    (same : SameWindow off (payloadLen flash off header + 32) flash
      flash') :
    (bootImage sha off).run flash' = (bootImage sha off).run flash := by
  obtain ⟨run, succeed⟩ := run_bootImage_of_ok headerRead booted
  apply local_bootImage sha off flash flash'
  rw [run]
  exact same.sameAt (readsWithin_bootReads hashed) succeed

end Execution

/-- When a boot of a hashed image reaches the jump, everything it executes
was read from the hashed payload, and any flash that holds the same payload
and digest boots the same way. -/
theorem verified_execution {sha : Sha256} {flash : Flash} {off : UInt32}
    {header : ImageHeader} {entry : UInt32}
    (headerRead : ((readHeader off).run flash).result = .ok header)
    (hashed : header.hashAppended = true)
    (booted : ((bootImage sha off).run flash).result = .ok entry) :
    ∃ total,
      ((computeImageTotalSize off header).run flash).result = .ok total ∧
      let len := (total - hashLen).toNat
      ((verifyAppSha256 sha off header).run flash).trace =
        (imageSegments flash off header).map (Segment.headerRead off) ++
          ((chunkSpans len).map (spanRead off) ++
            [spanRead off (len, 32)]) ∧
      (∀ start dest size, Event.romRead start dest size ∈
          ((readHeader off).run flash).trace ++
            ((loadSegments off header).run flash).trace →
        ∀ index < size,
          InRange off len (start + UInt32.ofNat index)) ∧
      ∀ flash', SameWindow off (len + 32) flash flash' →
        (bootImage sha off).run flash' = (bootImage sha off).run flash := by
  obtain ⟨header', headerRead', gate, loaded, _⟩ :=
    result_bootImage_eq_ok_iff.mp booted
  cases headerRead.symm.trans headerRead'
  obtain ⟨d, accepted⟩ := (result_verifyGate_eq_ok_iff hashed).mp gate
  have verified := verified_of_result accepted
  have limits := fun segment member => (verified.sized segment member).2
  have bound := payloadLen_add_lt limits
  refine ⟨_, result_computeImageTotalSize_eq_ok_iff.mpr
    ⟨verified.sized, rfl⟩, ?_⟩
  rw [if_pos hashed, toNat_total_sub_hashLen limits]
  refine ⟨verified.trace, ?_, ?_⟩
  · intro start dest size member index below
    have load :=
      run_loadSegments_of_loaded (loaded_of_result_loadSegments loaded)
    rw [trace_readHeader, load] at member
    exact (readsWithin_payload flash off header).inRange (by omega) member
      below
  · intro flash' same
    exact run_bootImage_of_sameWindow headerRead hashed booted same

theorem readHeader_sampleFlash :
    ((readHeader 0x20000).run sampleFlash).result = .ok sampleHeader := by
  decide

theorem bootImage_sampleFlash :
    ((verifyAppSha256 sampleSha 0x20000 sampleHeader).run
        sampleFlash).result = .ok sampleDigest ∧
      ((bootImage sampleSha 0x20000).run sampleFlash).result =
        .ok 0x4FF50000 := by
  decide +kernel

theorem verified_execution_sample :
    ∃ total,
      ((computeImageTotalSize 0x20000 sampleHeader).run
        sampleFlash).result = .ok total ∧
      ∀ flash',
        SameWindow 0x20000 ((total - hashLen).toNat + 32) sampleFlash
          flash' →
        (bootImage sampleSha 0x20000).run flash' =
          (bootImage sampleSha 0x20000).run sampleFlash := by
  obtain ⟨total, size, _, _, same⟩ := verified_execution
    readHeader_sampleFlash rfl bootImage_sampleFlash.2
  exact ⟨total, size, same⟩

/-! ## Corruption -/

section Corruption

variable {sha : Sha256} {flash flash' : Flash} {off : UInt32}

/-- A table is as long as its length fields say. -/
theorem tableEnd_eq_of_lengths {count rel : Nat}
    (lengths : ∀ segment ∈ segmentTable flash off count rel,
      (segmentAt flash' off segment.rel).dataLen = segment.dataLen) :
    tableEnd rel (segmentTable flash' off count rel) =
      tableEnd rel (segmentTable flash off count rel) := by
  induction count generalizing rel with
  | zero => rfl
  | succ count induction =>
      simp only [segmentTable, List.mem_cons, forall_eq_or_imp] at lengths
      obtain ⟨head, tail⟩ := lengths
      have extent : (segmentAt flash' off rel).extent =
          (segmentAt flash off rel).extent :=
        congrArg (fun dataLen : UInt32 => 8 + dataLen.toNat) head
      simp only [segmentTable, tableEnd_cons, extent]
      exact induction tail

/-- Bytes outside the payload include the appended digest. -/
theorem appended_eq_of_confined {header header' : ImageHeader}
    (small : payloadLen flash off header + 32 < 2 ^ 31)
    (sameLen : payloadLen flash' off header' = payloadLen flash off header)
    (confined : ∀ address,
      ¬ InRange off (payloadLen flash off header) address →
        flash'.byte address = flash.byte address) :
    appended flash' off header' = appended flash off header := by
  unfold appended
  rw [sameLen]
  apply slice_eq_of_bytes
  intro index below
  apply confined
  rw [add_ofNat_add_ofNat, inRange_add_ofNat (by omega)]
  omega

theorem header_fields_eq {flash : Flash} {off : UInt32} :
    (flash.header off).segmentCount = flash.byte (off + 1) ∧
      ((flash.header off).hashAppended = true ↔
        flash.byte (off + 23) ≠ 0) := by
  simp [Flash.header, Flash.slice]

end Corruption

/-- Corruption of a verified payload that keeps the layout and leaves the
hash flag set is refused. -/
theorem corruption_is_refused {sha : Sha256} {digest : List UInt8 → Digest}
    (streams : sha.Streams digest) {flash flash' : Flash} {off : UInt32}
    {header : ImageHeader} {d : Digest}
    (headerRead : ((readHeader off).run flash).result = .ok header)
    (accepted : ((verifyAppSha256 sha off header).run flash).result =
      .ok d)
    (injective : Set.InjOn digest
      {(flash.slice off (payloadLen flash off header)).toList,
        (flash'.slice off (payloadLen flash off header)).toList})
    (confined : ∀ address,
      ¬ InRange off (payloadLen flash off header) address →
        flash'.byte address = flash.byte address)
    (differs : ∃ address,
      InRange off (payloadLen flash off header) address ∧
        flash'.byte address ≠ flash.byte address)
    (count : flash'.byte (off + 1) = flash.byte (off + 1))
    (lengths : ∀ segment ∈ imageSegments flash off header,
      (segmentAt flash' off segment.rel).dataLen = segment.dataLen)
    (flag : flash'.byte (off + 23) ≠ 0) :
    ∀ entry, ((bootImage sha off).run flash').result ≠ .ok entry := by
  intro entry booted
  obtain ⟨header', headerRead', gate, _, _⟩ :=
    result_bootImage_eq_ok_iff.mp booted
  obtain ⟨_, _, rfl⟩ := result_readHeader_eq_ok_iff.mp headerRead
  obtain ⟨_, _, rfl⟩ := result_readHeader_eq_ok_iff.mp headerRead'
  have hashed : (flash'.header off).hashAppended = true :=
    header_fields_eq.2.mpr flag
  obtain ⟨d', accepted'⟩ := (result_verifyGate_eq_ok_iff hashed).mp gate
  have verified := verified_of_result accepted
  have verified' := verified_of_result accepted'
  have sameCount : (flash'.header off).segmentCount =
      (flash.header off).segmentCount := by
    rw [header_fields_eq.1, header_fields_eq.1, count]
  have sameLen : payloadLen flash' off (flash'.header off) =
      payloadLen flash off (flash.header off) := by
    simp only [payloadLen, imageSegments, sameCount]
    rw [tableEnd_eq_of_lengths lengths]
  have bound := payloadLen_add_lt
    (fun segment member => (verified.sized segment member).2)
  have sameAppended := appended_eq_of_confined bound sameLen confined
  have digests : digest (flash'.slice off
        (payloadLen flash off (flash.header off))).toList =
      digest (flash.slice off
        (payloadLen flash off (flash.header off))).toList := by
    rw [← sameLen, ← chunkedDigest_eq streams, verified'.digest,
      sameAppended, ← verified.digest, chunkedDigest_eq streams, sameLen]
  have payloads := injective (by simp) (by simp) digests
  obtain ⟨address, inside, different⟩ := differs
  obtain ⟨index, below, rfl⟩ :=
    (inRange_iff_exists (by omega)).mp inside
  apply different
  have sameSlice := Vector.toList_inj.mp payloads
  have sameByte := congrArg (fun bytes => bytes[index]) sameSlice
  simpa [Flash.slice] using sameByte

theorem corruption_is_refused_sample :
    sampleFlash.byte 0x20020 = 0x13 ∧
      ∀ entry, ((bootImage sampleSha 0x20000).run
        (sampleFlash.patch 0x20020 0x14)).result ≠ .ok entry := by
  refine ⟨by decide, ?_⟩
  have inside : InRange 0x20000 (payloadLen sampleFlash 0x20000
      sampleHeader) 0x20020 := by decide
  apply corruption_is_refused (Sha256.streams_buffered sampleHash)
    readHeader_sampleFlash bootImage_sampleFlash.1
  · rw [Set.injOn_pair]
    decide
  · intro address outside
    exact byte_patch_of_not_inRange sampleFlash 0x14 inside outside
  · exact ⟨0x20020, inside, by decide⟩
  · decide
  · decide
  · decide

/-- Clearing the hash flag of the sample image corrupts its payload and keeps
its layout, and the image boots unverified. -/
theorem cleared_hash_flag_boots :
    let flash' := sampleFlash.patch 0x20017 0
    let len := payloadLen sampleFlash 0x20000 sampleHeader
    ((readHeader 0x20000).run sampleFlash).result = .ok sampleHeader ∧
      ((bootImage sampleSha 0x20000).run sampleFlash).result =
        .ok 0x4FF50000 ∧
      ((verifyAppSha256 sampleSha 0x20000 sampleHeader).run
        sampleFlash).result = .ok sampleDigest ∧
      Set.InjOn sampleHash {(sampleFlash.slice 0x20000 len).toList,
        (flash'.slice 0x20000 len).toList} ∧
      (∀ address, ¬ InRange 0x20000 len address →
        flash'.byte address = sampleFlash.byte address) ∧
      (∃ address, InRange 0x20000 len address ∧
        flash'.byte address ≠ sampleFlash.byte address) ∧
      flash'.byte (0x20000 + 1) = sampleFlash.byte (0x20000 + 1) ∧
      (∀ segment ∈ imageSegments sampleFlash 0x20000 sampleHeader,
        (segmentAt flash' 0x20000 segment.rel).dataLen = segment.dataLen) ∧
      ((bootImage sampleSha 0x20000).run flash').result = .ok 0x4FF50000 := by
  intro flash' len
  have inside : InRange 0x20000 len 0x20017 := by decide
  refine ⟨readHeader_sampleFlash, bootImage_sampleFlash.2,
    bootImage_sampleFlash.1, ?_, ?_, ⟨0x20017, inside, by decide⟩,
    by decide, by decide, by decide⟩
  · rw [Set.injOn_pair]
    decide
  · intro address outside
    exact byte_patch_of_not_inRange sampleFlash 0 inside outside

end MiniBootloader
