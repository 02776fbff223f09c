import MiniBootloader.ImageReads
import MiniBootloader.SlotFallback
import MiniBootloader.VerifiedExecution

/-!
# The extent of a booted image

Where an image ends is decided by its own headers.  The size of the partition
it starts in is printed and otherwise unused, so the boot stays inside the
partition exactly when the image does.
-/

namespace MiniBootloader

open Words

/-- The bytes a boot reads: the payload with its digest, or for an image
without a hash the segments only. -/
def imageExtent (flash : Flash) (off : UInt32) (header : ImageHeader) : Nat :=
  if header.hashAppended then payloadLen flash off header + 32
  else tableEnd 24 (imageSegments flash off header)

theorem imageExtent_pos (flash : Flash) (off : UInt32)
    (header : ImageHeader) : 0 < imageExtent flash off header := by
  have start := le_tableEnd 24 (imageSegments flash off header)
  unfold imageExtent
  split <;> omega

/-- The byte at `position` of an image is among those a trace reads. -/
def Reads (off : UInt32) (position : Nat) (trace : List Event) : Prop :=
  ∃ start dest size index, Event.romRead start dest size ∈ trace ∧
    index < size ∧
    start + UInt32.ofNat index = off + UInt32.ofNat position

theorem Reads.mono {off : UInt32} {position : Nat}
    {small large : List Event} (reads : Reads off position small)
    (subset : small ⊆ large) : Reads off position large := by
  obtain ⟨start, dest, size, index, member, below, address⟩ := reads
  exact ⟨start, dest, size, index, subset member, below, address⟩

theorem reads_window {off : UInt32} {rel size position : Nat} {dest : Dest}
    {trace : List Event}
    (member : .romRead (off + UInt32.ofNat rel) dest size ∈ trace)
    (lower : rel ≤ position) (upper : position < rel + size) :
    Reads off position trace := by
  refine ⟨_, dest, size, position - rel, member, by omega, ?_⟩
  rw [add_ofNat_add_ofNat, Nat.add_sub_cancel' lower]

section Coverage

variable {flash : Flash} {off : UInt32} {header : ImageHeader}

/-- The loader reads every byte of the segments. -/
theorem reads_loadTableEvents {index count rel position : Nat}
    (lower : rel ≤ position)
    (upper : position < tableEnd rel (segmentTable flash off count rel)) :
    Reads off position
      (loadTableEvents flash off index
        (segmentTable flash off count rel)) := by
  induction count generalizing rel index with
  | zero =>
      simp only [segmentTable, tableEnd_nil] at upper
      omega
  | succ count induction =>
      simp only [segmentTable, tableEnd_cons] at upper ⊢
      simp only [loadTableEvents]
      by_cases inHeader : position < rel + 8
      · have member : Event.romRead (off + UInt32.ofNat rel) .words 8 ∈
            (segmentAt flash off rel).loadEvents flash off index :=
          List.mem_cons_self
        exact (reads_window member lower inHeader).mono
          (List.subset_append_left _ _)
      · by_cases inData :
            position < rel + (segmentAt flash off rel).extent
        · have member : (segmentAt flash off rel).copyRead off ∈
              (segmentAt flash off rel).loadEvents flash off index := by
            simp [Segment.loadEvents]
          simp only [Segment.extent] at inData
          exact (reads_window member (by simp only [segmentAt]; omega)
            (by simp only [segmentAt] at inData ⊢; omega)).mono
              (List.subset_append_left _ _)
        · exact (induction (by omega) upper).mono
            (List.subset_append_right _ _)

/-- A boot that reaches the jump has read the last byte of the image. -/
theorem reads_last (flash : Flash) (off : UInt32) (header : ImageHeader) :
    Reads off (imageExtent flash off header - 1)
      (bootReads flash off header) := by
  by_cases hashed : header.hashAppended = true
  · have member : spanRead off (payloadLen flash off header, 32) ∈
        bootReads flash off header := by
      simp [bootReads, gateReads, checkReads, hashed]
    rw [imageExtent, if_pos hashed]
    exact reads_window member (by omega) (by omega)
  · have start := le_tableEnd 24 (imageSegments flash off header)
    rw [imageExtent, if_neg hashed]
    by_cases inHeader :
        tableEnd 24 (imageSegments flash off header) - 1 < 24
    · have zero : off + UInt32.ofNat 0 = off := UInt32.add_zero off
      have member : .romRead (off + UInt32.ofNat 0) .words 24 ∈
          bootReads flash off header := by
        rw [zero]
        exact List.mem_cons_self
      exact reads_window member (Nat.zero_le _) (by omega)
    · have load : Reads off
          (tableEnd 24 (imageSegments flash off header) - 1)
          (loadTableEvents flash off 0 (imageSegments flash off header)) :=
        reads_loadTableEvents (by omega)
          (Nat.sub_lt (by omega) Nat.one_pos)
      apply load.mono
      intro event member
      simp [bootReads, gateReads, hashed, member]

theorem readsWithin_imageExtent (flash : Flash) (off : UInt32)
    (header : ImageHeader) :
    ReadsWithin off (imageExtent flash off header)
      (bootReads flash off header) := by
  by_cases hashed : header.hashAppended = true
  · rw [imageExtent, if_pos hashed]
    exact readsWithin_bootReads hashed
  · rw [imageExtent, if_neg hashed]
    simp only [bootReads, gateReads, hashed, Bool.false_eq_true, if_false,
      List.nil_append]
    have load := readsWithin_loadTableEvents flash off 0
      header.segmentCount.toNat 24
    exact ((readsWithin_header off).mono (le_tableEnd 24 _)).append load

theorem imageExtent_le
    (limits : ∀ segment ∈ imageSegments flash off header,
      segment.dataLen ≤ maxSegmentLen) :
    imageExtent flash off header ≤ 2 ^ 31 := by
  have bound := payloadLen_add_lt limits
  have tableInside := tableEnd_lt_payloadLen flash off header
  unfold imageExtent
  split <;> omega

end Coverage

/-- Where a picked partition comes from. -/
theorem pick_ok_entry {ota : P4Ota} {flash : Flash}
    {chosen : PartitionEntry} {outcome : SelectionOutcome}
    (picked : (pick ota flash).result = .ok (chosen, outcome)) :
    ((pick ota flash).flash.partitions.find? fun e =>
        e.labelStr == (chosenSlot ota flash).label) = some chosen ∨
      outcome = .factoryFallback (chosenSlot ota flash) ∧
      ((pick ota flash).flash.partitions.find? fun e =>
        e.kind == partTypeApp && e.subtype == partSubtypeFactory) =
          some chosen := by
  rw [pick_result] at picked
  by_cases readable : (pick ota flash).flash.TableReadable
  · rw [result_bootChosenSlot _ _ readable] at picked
    cases image : (pick ota flash).flash.slotImage
        (chosenSlot ota flash) with
    | some entry =>
        rw [image] at picked
        obtain ⟨rfl, _⟩ := Prod.mk.inj (Except.ok.inj picked)
        exact .inl (find_of_slotImage image)
    | none =>
        rw [image, result_fallBackToFactory _ readable] at picked
        cases factory : (pick ota flash).flash.factoryImage with
        | some entry =>
            rw [factory] at picked
            obtain ⟨rfl, fallback⟩ := Prod.mk.inj (Except.ok.inj picked)
            exact .inr ⟨fallback.symm, find_of_factoryImage factory⟩
        | none =>
            rw [factory] at picked
            cases picked
  · rw [result_bootChosenSlot_of_not_readable _ _ readable] at picked
    cases picked

/-- The partition of a boot that reaches the jump is found by label, or is
the factory app on a fallback.  Everything read from it lies in the extent
its image declares, so it lies in the partition exactly when that extent is
at most the partition's size. -/
theorem booted_image_in_slot_iff (P : Platform) {resetCause : Cause}
    {flash : Flash} {chosen : PartitionEntry} {outcome : SelectionOutcome}
    {entry : UInt32}
    (picked : (bootPick P resetCause flash).result = .ok (chosen, outcome))
    (booted : (main P resetCause flash).result = .ok entry) :
    let after := (bootPick P resetCause flash).flash
    let slot := chosenSlot P.ota (flashAtPick P resetCause flash)
    let extent :=
      imageExtent after chosen.offset (after.header chosen.offset)
    ((after.partitions.find? fun e => e.labelStr == slot.label) =
        some chosen ∨
      outcome = .factoryFallback slot ∧ chosen.kind = partTypeApp ∧
        (after.partitions.find? fun e =>
          e.kind == partTypeApp && e.subtype == partSubtypeFactory) =
            some chosen) ∧
    (∀ start dest size,
      BootEvent.image (.romRead start dest size) ∈
        (main P resetCause flash).events →
      ∀ index < size,
        InRange chosen.offset extent (start + UInt32.ofNat index)) ∧
    ((∀ start dest size,
      BootEvent.image (.romRead start dest size) ∈
        (main P resetCause flash).events →
      ∀ index < size,
        InRange chosen.offset chosen.size.toNat
          (start + UInt32.ofNat index)) ↔
      extent ≤ chosen.size.toNat) := by
  intro after slot extent
  have image : ((bootImage P.sha chosen.offset).run after).result =
      .ok entry := by
    rw [main_of_pick_ok P picked] at booted
    exact booted
  obtain ⟨header, headerRead, _, loaded, _⟩ :=
    result_bootImage_eq_ok_iff.mp image
  obtain ⟨run, _⟩ := run_bootImage_of_ok headerRead image
  obtain ⟨_, _, rfl⟩ := result_readHeader_eq_ok_iff.mp headerRead
  have segments := loaded_of_result_loadSegments loaded
  have small : extent ≤ 2 ^ 31 :=
    imageExtent_le fun segment member => (segments segment member).1.1.2
  have events (event : Event) :
      BootEvent.image event ∈ (main P resetCause flash).events ↔
        event ∈ bootReads after chosen.offset
          (after.header chosen.offset) := by
    rw [image_mem_main_iff]
    constructor
    · rintro ⟨chosen', outcome', picked', member⟩
      cases picked.symm.trans picked'
      rw [run] at member
      exact member
    · intro member
      refine ⟨chosen, outcome, picked, ?_⟩
      rw [run]
      exact member
  have within := readsWithin_imageExtent after chosen.offset
    (after.header chosen.offset)
  refine ⟨?_, ?_, ?_, ?_⟩
  · rcases pick_ok_entry picked with byLabel | ⟨fallback, factory⟩
    · exact .inl byLabel
    · have matching := List.find?_some factory
      simp only [Bool.and_eq_true, beq_iff_eq] at matching
      exact .inr ⟨fallback, matching.1, factory⟩
  · intro start dest size member index below
    exact within.inRange (by omega) ((events _).mp member) below
  · intro inside
    obtain ⟨start, dest, size, index, member, below, address⟩ :=
      reads_last after chosen.offset (after.header chosen.offset)
    have last := inside start dest size ((events _).mpr member) index below
    have positive : 0 < extent := imageExtent_pos _ _ _
    rw [address, inRange_add_ofNat (by omega)] at last
    omega
  · intro fits start dest size member index below
    have inside := within.inRange (by omega) ((events _).mp member) below
    exact inside.mono fits

/-- The stand-ins pick the sample image behind a written table. -/
theorem bootPick_withTable {resetCause : Cause}
    {entries : List PartitionEntry} (count : entries.length ≤ 32)
    {entry : PartitionEntry}
    (found : (entries.find? fun e => e.labelStr == Slot.label .a) =
      some entry)
    (place : entry.offset = 0x20000) :
    (bootPick (standIn sampleSha) resetCause
      (sampleFlash.withTable entries)).result = .ok (entry, .otaFresh) := by
  have readable : sampleFlash.TableReadable := rfl
  have blank : StandIn.loadFromFlash otadataPartitionOffset sampleFlash =
      .error () := by decide
  have bootable : sampleFlash.Bootable entry := by
    rw [Flash.Bootable, place]
    decide
  apply bootPick_standIn count readable blank found bootable
  · rw [place]
    decide
  · rw [place]
    decide

/-- The sample image boots alike on every flash that holds it. -/
theorem run_bootImage_of_sameImage {flash : Flash}
    (kept : SameRange 0x20000 80 sampleFlash flash)
    (status : flash.status = sampleFlash.status) :
    (bootImage sampleSha 0x20000).run flash =
      (bootImage sampleSha 0x20000).run sampleFlash := by
  have window : payloadLen sampleFlash 0x20000 sampleHeader + 32 = 80 := by
    decide
  apply run_bootImage_of_sameWindow readHeader_sampleFlash rfl
    bootImage_sampleFlash.2
  rw [window]
  constructor
  · intro index below
    exact kept.bytes _ ((inRange_add_ofNat (by omega)).mpr below)
  · intro rel size _
    rw [Flash.Readable, status]
    rfl

/-- Behind a written table the sample image boots as it does alone. -/
theorem run_bootImage_withTable (resetCause : Cause)
    {entries : List PartitionEntry} (count : entries.length ≤ 32) :
    (bootImage sampleSha 0x20000).run
        (bootPick (standIn sampleSha) resetCause
          (sampleFlash.withTable entries)).flash =
      (bootImage sampleSha 0x20000).run sampleFlash := by
  have framed := framed_standIn sampleSha
  have kept : SameRange 0x20000 80 sampleFlash
      (bootPick (standIn sampleSha) resetCause
        (sampleFlash.withTable entries)).flash :=
    (sameRange_withTable sampleFlash count (by decide) (by decide)).trans
      (sameRange_bootPick_behind framed (by decide) (by decide) _ _)
  exact run_bootImage_of_sameImage kept (status_bootPick framed _ _)

theorem main_withTable {resetCause : Cause}
    {entries : List PartitionEntry} (count : entries.length ≤ 32)
    {chosen : PartitionEntry} {outcome : SelectionOutcome}
    (picked : (bootPick (standIn sampleSha) resetCause
      (sampleFlash.withTable entries)).result = .ok (chosen, outcome))
    (place : chosen.offset = 0x20000) :
    (main (standIn sampleSha) resetCause
      (sampleFlash.withTable entries)).result = .ok 0x4FF50000 := by
  have run := run_bootImage_withTable resetCause count
  rw [main_of_pick_ok _ picked, place]
  change ((bootImage sampleSha 0x20000).run _).result = _
  rw [run]
  exact bootImage_sampleFlash.2

theorem image_mem_main_withTable {resetCause : Cause}
    {entries : List PartitionEntry} (count : entries.length ≤ 32)
    {chosen : PartitionEntry} {outcome : SelectionOutcome}
    (picked : (bootPick (standIn sampleSha) resetCause
      (sampleFlash.withTable entries)).result = .ok (chosen, outcome))
    (place : chosen.offset = 0x20000) {event : Event}
    (member : event ∈ bootReads sampleFlash 0x20000 sampleHeader) :
    BootEvent.image event ∈ (main (standIn sampleSha) resetCause
      (sampleFlash.withTable entries)).events := by
  have run := run_bootImage_withTable resetCause count
  have booted := run_bootImage_of_ok readHeader_sampleFlash
    bootImage_sampleFlash.2
  apply (image_mem_main_iff _).mpr
  refine ⟨chosen, outcome, picked, ?_⟩
  rw [place]
  change event ∈ ((bootImage sampleSha 0x20000).run _).trace
  rw [run, booted.1]
  exact member

theorem bootPick_firstSlot :
    (bootPick (standIn sampleSha) .powerOn (oneSlotFlash .a)).result =
      .ok (slotPartition .a, .otaFresh) :=
  bootPick_withTable (by decide) (by decide) rfl

theorem main_firstSlot :
    (main (standIn sampleSha) .powerOn (oneSlotFlash .a)).result =
      .ok 0x4FF50000 :=
  main_withTable (by decide) bootPick_firstSlot rfl

theorem booted_image_in_slot_sample :
    (main (standIn sampleSha) .powerOn (oneSlotFlash .a)).result =
        .ok 0x4FF50000 ∧
      ∀ start dest size,
        BootEvent.image (.romRead start dest size) ∈
          (main (standIn sampleSha) .powerOn (oneSlotFlash .a)).events →
        ∀ index < size,
          InRange 0x20000 0xC0000 (start + UInt32.ofNat index) := by
  refine ⟨main_firstSlot, ?_⟩
  obtain ⟨_, _, inSlot⟩ := booted_image_in_slot_iff (standIn sampleSha)
    bootPick_firstSlot main_firstSlot
  apply inSlot.mpr
  decide +kernel

/-- A data partition of 32 bytes with the label of the first slot. -/
def shortPartition : PartitionEntry :=
  { slotPartition .a with
    kind := partTypeData
    size := 0x20 }

def shortSlotFlash : Flash := sampleFlash.withTable [shortPartition]

/-- The sample image boots from a partition that is neither an app partition
nor large enough to hold it. -/
theorem image_exceeds_slot :
    (bootPick (standIn sampleSha) .powerOn shortSlotFlash).result =
        .ok (shortPartition, .otaFresh) ∧
      (main (standIn sampleSha) .powerOn shortSlotFlash).result =
        .ok 0x4FF50000 ∧
      shortPartition.kind ≠ partTypeApp ∧
      BootEvent.image (.romRead 0x20020 (.memory 0x4FF50000) 4) ∈
        (main (standIn sampleSha) .powerOn shortSlotFlash).events ∧
      ¬ InRange shortPartition.offset shortPartition.size.toNat 0x20020 := by
  have picked : (bootPick (standIn sampleSha) .powerOn
      shortSlotFlash).result = .ok (shortPartition, .otaFresh) :=
    bootPick_withTable (by decide) (by decide) rfl
  refine ⟨picked, main_withTable (by decide) picked rfl, by decide, ?_,
    by decide⟩
  apply image_mem_main_withTable (by decide) picked rfl
  decide

end MiniBootloader
