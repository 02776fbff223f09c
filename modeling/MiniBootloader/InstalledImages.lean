import MiniBootloader.BootAttempts
import MiniBootloader.ImageFormat
import MiniBootloader.LoadRegion

/-!
# Images in slots

An image is installed in a slot when the partition table leads from the label
of the slot to an encoding of the image.  Boots keep it there, and a boot
that chooses the slot jumps into it with its segments copied.
-/

namespace MiniBootloader

/-- What a boot does to the image it picked. -/
def imageTrace {P : Platform} (events : List (BootEvent P)) : List Event :=
  events.filterMap fun event =>
    match event with
    | .image event => some event
    | _ => none

structure Installed (digest : List UInt8 → Digest) (flash : Flash)
    (slot : Slot) (image : AppImage) : Prop where
  table : flash.TableReadable
  held : ∃ entry seed,
    (flash.partitions.find? fun e => e.labelStr == slot.label) =
      some entry ∧
    flash.Holds entry.offset (image.encode digest seed) ∧
    flash.WindowReadable entry.offset (image.encode digest seed).length ∧
    0x14000 ≤ entry.offset.toNat ∧
    entry.offset.toNat + (image.encode digest seed).length ≤ 2 ^ 32

/-- The boot jumped into the image, with its segments reported and copied in
order and nothing else copied. -/
structure JumpedInto {P : Platform} (image : AppImage)
    (run : FlashRun (BootEvent P) Halt UInt32) : Prop where
  result : run.result = .ok image.entryAddr
  copied : effects (imageTrace run.events) =
    AppImage.loadEffects 0 image.segments

/-! ## One image -/

theorem effects_append (first second : List Event) :
    effects (first ++ second) = effects first ++ effects second :=
  List.filter_append first second

theorem effects_of_intoBuffer {trace : List Event}
    (buffers : ∀ event ∈ trace, IntoBuffer event) : effects trace = [] := by
  apply List.filter_eq_nil_iff.mpr
  intro event member shown
  have buffer := buffers event member
  cases event with
  | romRead start dest len => cases shown
  | memWrite address data => exact buffer
  | onSegment index loadAddr dataLen => exact buffer

section Image

variable {flash : Flash} {off : UInt32} {image : AppImage}

/-- The bytes of an encoding that starts with the header. -/
theorem length_body_le (digest : List UInt8 → Digest) (seed : UInt8)
    (image : AppImage) :
    24 ≤ image.body.length ∧
      image.body.length ≤ (image.encode digest seed).length := by
  constructor
  · simp [AppImage.body]
  · simp only [AppImage.encode, AppImage.payload, List.length_append]
    omega

theorem body_of_holds {digest : List UInt8 → Digest} {seed : UInt8}
    (holds : flash.Holds off (image.encode digest seed)) :
    flash.Holds off image.body :=
  (holds_append_iff.mp (holds_append_iff.mp holds).1).1

theorem readHeader_of_holds {digest : List UInt8 → Digest} {seed : UInt8}
    (holds : flash.Holds off (image.encode digest seed))
    (readable : flash.WindowReadable off
      (image.encode digest seed).length) :
    ((readHeader off).run flash).result = .ok image.header := by
  obtain ⟨header, body⟩ := length_body_le digest seed image
  have headerHeld := (holds_append_iff.mp (body_of_holds holds)).1
  have fields := header_of_holds headerHeld
  have headerReadable := readable 0 24 (by omega)
  have zero : off + UInt32.ofNat 0 = off := UInt32.add_zero off
  rw [zero] at headerReadable
  apply result_readHeader_eq_ok_iff.mpr
  refine ⟨headerReadable, ?_, fields.symm⟩
  rw [fields]
  rfl

/-- A flash that holds an encoded image boots it. -/
theorem bootImage_of_holds {sha : Sha256} {digest : List UInt8 → Digest}
    (streams : sha.Streams digest) {seed : UInt8}
    (holds : flash.Holds off (image.encode digest seed))
    (readable : flash.WindowReadable off
      (image.encode digest seed).length) :
    ((bootImage sha off).run flash).result = .ok image.entryAddr ∧
      effects ((bootImage sha off).run flash).trace =
        AppImage.loadEffects 0 image.segments := by
  have bodyHeld := body_of_holds holds
  obtain ⟨_, body⟩ := length_body_le digest seed image
  have headerRead := readHeader_of_holds holds readable
  have loaded := imageLoaded_of_holds bodyHeld
    (fun rel size fits => readable rel size (by omega))
  have load := run_loadSegments_of_loaded loaded
  have gate : ((verifyGate sha off image.header).run flash).result =
      .ok () := by
    by_cases hashed : image.header.hashAppended = true
    · have flag : image.flag ≠ 0 := by
        simpa [AppImage.header] using hashed
      exact (result_verifyGate_eq_ok_iff hashed).mpr
        ⟨_, verifyAppSha256_of_holds streams seed flag holds readable⟩
    · rw [verifyGate, if_neg hashed]
      rfl
  have booted : ((bootImage sha off).run flash).result =
      .ok image.entryAddr :=
    result_bootImage_eq_ok_iff.mpr
      ⟨image.header, headerRead, gate, by rw [load], rfl⟩
  refine ⟨booted, ?_⟩
  obtain ⟨run, _⟩ := run_bootImage_of_ok headerRead booted
  have gateTrace := (trace_verifyGate_of_ok gate).1
  have checked : effects (gateReads flash off image.header) = [] := by
    apply effects_of_intoBuffer
    rw [← gateTrace]
    exact emits_verifyGate flash sha off image.header
  have table := effects_of_holds 0 (segments_of_holds bodyHeld)
  rw [← toNat_segmentCount] at table
  have split : bootReads flash off image.header =
      [.romRead off .words 24] ++ (gateReads flash off image.header ++
        loadTableEvents flash off 0
          (imageSegments flash off image.header)) := rfl
  rw [run, split, effects_append, effects_append, checked, imageSegments,
    table]
  rfl

end Image

/-! ## Flashes that keep an image -/

theorem holds_program (flash : Flash) (start : UInt32) {bytes : List UInt8}
    (small : bytes.length ≤ 2 ^ 32) :
    (flash.program start bytes).Holds start bytes := by
  have stored := slice_program flash start (⟨bytes.toArray, rfl⟩ :
    Vector UInt8 bytes.length) small
  rw [Flash.Holds]
  exact congrArg Vector.toList stored

theorem SameRange.holds {start : UInt32} {bytes : List UInt8}
    {flash flash' : Flash}
    (same : SameRange start bytes.length flash flash')
    (small : bytes.length ≤ 2 ^ 32) (holds : flash.Holds start bytes) :
    flash'.Holds start bytes := by
  rw [Flash.Holds, same.slice (Nat.le_refl _) small]
  exact holds

section Keeps

variable {digest : List UInt8 → Digest} {flash flash' : Flash}
  {slot : Slot} {image : AppImage}

/-- The length of the image at an offset, as its header and its segment table
give it. -/
def imageLen (flash : Flash) (off : UInt32) : Nat :=
  payloadLen flash off (flash.header off) +
    if (flash.header off).hashAppended then 32 else 0

theorem length_of_holds {off : UInt32} {seed : UInt8}
    (holds : flash.Holds off (image.encode digest seed)) :
    (image.encode digest seed).length = imageLen flash off := by
  have bodyHeld := body_of_holds holds
  have header := header_of_holds (holds_append_iff.mp bodyHeld).1
  rw [imageLen, header, payloadLen_of_holds seed bodyHeld,
    length_encodeImage]

/-- What leaves the table and the image alone keeps the image installed. -/
theorem Installed.of_same
    (table : SameRange partitionTableOffset partitionTableReadLen flash
      flash')
    (status : flash'.status = flash.status)
    (same : ∀ entry,
      (flash.partitions.find? fun e => e.labelStr == slot.label) =
        some entry →
      0x14000 ≤ entry.offset.toNat →
      entry.offset.toNat + imageLen flash entry.offset ≤ 2 ^ 32 →
      SameRange entry.offset (imageLen flash entry.offset) flash flash')
    (installed : Installed digest flash slot image) :
    Installed digest flash' slot image := by
  obtain ⟨readable, entry, seed, found, holds, window, behind, fits⟩ :=
    installed
  have length := length_of_holds holds
  have kept := same entry found behind (length ▸ fits)
  rw [← length] at kept
  refine ⟨?_, entry, seed, ?_, kept.holds (by omega) holds, ?_, behind,
    fits⟩
  · exact (table.readable (by decide) partitionTableReadLen).mpr readable
  · rw [Flash.partitions, table.slice (Nat.le_refl _) (by decide)]
    exact found
  · intro rel size within
    rw [Flash.Readable, status]
    exact window rel size within

/-- A store in front of the images keeps them. -/
theorem Installed.stored {α : Type} {offset : UInt32}
    {store : Flash → Flash × α} (touches : TouchesSector offset store)
    (front : 0x8400 ≤ offset.toNat ∧ offset.toNat + sectorSize ≤ 0x14000)
    (installed : Installed digest flash slot image) :
    Installed digest (store flash).1 slot image := by
  have tableEnds : partitionTableOffset.toNat + partitionTableReadLen ≤
      0x8400 := by decide
  apply installed.of_same
  · apply touches.sameRange (sparesSector_of_apart ?_)
    exact .inl ⟨by omega, by omega⟩
  · exact (touches flash).1
  · intro entry _ behind fits
    apply touches.sameRange (sparesSector_of_apart ?_)
    exact .inr ⟨by omega, fits⟩

end Keeps

/-! ## Boots -/

section Boots

variable {P : Platform} {digest : List UInt8 → Digest} {flash : Flash}
  {slot : Slot} {image : AppImage}

/-- What a boot writes lies in front of the images. -/
theorem Installed.bootPick (framed : P.Framed)
    (installed : Installed digest flash slot image) (cause : Cause) :
    Installed digest (bootPick P cause flash).flash slot image := by
  apply installed.of_same
  · exact sameRange_table_bootPick framed cause flash
  · exact status_bootPick framed cause flash
  · intro entry _ behind fits
    exact sameRange_bootPick_behind framed fits behind cause flash

theorem imageTrace_append (first second : List (BootEvent P)) :
    imageTrace (first ++ second) = imageTrace first ++ imageTrace second :=
  List.filterMap_append

theorem imageTrace_main_of_pick_ok {cause : Cause}
    {chosen : PartitionEntry} {outcome : SelectionOutcome}
    (picked : (MiniBootloader.bootPick P cause flash).result =
      .ok (chosen, outcome)) :
    imageTrace (main P cause flash).events =
      ((bootImage P.sha chosen.offset).run
        (MiniBootloader.bootPick P cause flash).flash).trace := by
  have reports (events : List (ReportEvent P.bootstat.Record)) :
      imageTrace (P := P) (events.map .report) = [] := by
    rw [imageTrace, List.filterMap_map]
    exact List.filterMap_eq_nil_iff.mpr fun _ _ => rfl
  have picks (events : List (PickEvent P.ota.OtaData)) :
      imageTrace (P := P) (events.map .pick) = [] := by
    rw [imageTrace, List.filterMap_map]
    exact List.filterMap_eq_nil_iff.mpr fun _ _ => rfl
  have images (trace : List Event) :
      imageTrace (P := P) (trace.map .image) = trace := by
    rw [imageTrace, List.filterMap_map]
    exact List.filterMap_some
  rw [main_of_pick_ok P picked]
  simp only [imageTrace_append, reports, picks, images, List.nil_append]

/-- A boot that chooses the slot of an installed image jumps into it. -/
theorem Installed.jumpedInto (framed : P.Framed)
    (streams : P.sha.Streams digest)
    (installed : Installed digest flash slot image) {cause : Cause}
    (chosen : chosenSlot P.ota (flashAtPick P cause flash) = slot) :
    JumpedInto image (main P cause flash) := by
  obtain ⟨table, entry, seed, found, holds, readable, _, _⟩ :=
    installed.bootPick framed cause
  have header := readHeader_of_holds holds readable
  have present : (MiniBootloader.bootPick P cause flash).flash.slotImage
      slot = some entry := by
    rw [Flash.slotImage, found, Option.filter_some, if_pos]
    exact decide_eq_true (bootable_iff.mpr ⟨_, header⟩)
  rw [← chosen] at present
  have picked : (MiniBootloader.bootPick P cause flash).result = _ :=
    result_pick_of_slotImage P.ota table present
  obtain ⟨booted, copied⟩ := bootImage_of_holds streams holds readable
  constructor
  · rw [main_of_pick_ok P picked]
    exact booted
  · rw [imageTrace_main_of_pick_ok picked]
    exact copied

end Boots

end MiniBootloader
