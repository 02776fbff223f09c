import MiniBootloader.SlotFallback

/-!
# Devices that the selection strands

The slot that was not chosen is never tried, so the fallback serves a device
with one good image unless that image is in the other slot.  The images are
those of the flash a boot finds; the store that `pick` makes before it looks
for them may do anything to the otadata sector.
-/

namespace MiniBootloader

open Words

/-- With a bootable image in a slot or in the factory partition of `flash`,
the selection returns a bootable one, and the factory one only if no slot
has any. -/
def NotStranded {S : Type} (flash : Flash)
    (run : FlashRun (PickEvent S) SlotSelectError
      (PartitionEntry × SelectionOutcome)) : Prop :=
  (∃ entry, (∃ slot, flash.slotImage slot = some entry) ∨
      flash.factoryImage = some entry) →
    ∃ entry outcome, run.result = .ok (entry, outcome) ∧
      flash.Bootable entry ∧ run.flash.Bootable entry ∧
      ∀ skipped, outcome = .factoryFallback skipped →
        ∀ slot, flash.slotImage slot = none

/-- If `pick` stores otadata on this flash, the image of the partition does
not start in the otadata sector. -/
def OtadataSpares (ota : P4Ota) (flash : Flash) (entry : PartitionEntry) :
    Prop :=
  (pickPlan ota flash).2.2.isSome →
    ¬ InRange otadataPartitionOffset sectorSize entry.offset

/-- The flash has an image for `pick` where `pick` looks, out of reach of its
own store: in the chosen slot, or, if no slot has any, in the factory
partition. -/
inductive Served (ota : P4Ota) (flash : Flash) : Prop where
  | slot {entry : PartitionEntry} :
      flash.slotImage (chosenSlot ota flash) = some entry →
      OtadataSpares ota flash entry →
      Served ota flash
  | factory :
      (∀ slot, flash.slotImage slot = none) →
      (∀ image, flash.factoryImage = some image →
        OtadataSpares ota flash image ∧
        ∀ empty, (flash.partitions.find? fun e =>
            e.labelStr == (chosenSlot ota flash).label) = some empty →
          flash.Readable empty.offset 24 →
          OtadataSpares ota flash empty) →
      Served ota flash

/-- Whether a header is accepted shows in its first byte. -/
theorem bootable_iff_magic {flash : Flash} {entry : PartitionEntry} :
    flash.Bootable entry ↔ flash.Readable entry.offset 24 ∧
      flash.byte entry.offset = espImageHeaderMagic := by
  rw [Flash.Bootable, magic_header]

theorem bootable_congr {flash flash' : Flash} {entry : PartitionEntry}
    (status : flash'.status = flash.status)
    (byte : flash'.byte entry.offset = flash.byte entry.offset) :
    flash'.Bootable entry ↔ flash.Bootable entry := by
  rw [bootable_iff_magic, bootable_iff_magic, Flash.Readable,
    Flash.Readable, status, byte]

/-- A candidate is the same on a flash that agrees on what it finds. -/
theorem image_congr {flash flash' : Flash} {found : Option PartitionEntry}
    (same : ∀ entry, found = some entry →
      (flash'.Bootable entry ↔ flash.Bootable entry)) :
    (found.filter fun e => flash'.Bootable e) =
      found.filter fun e => flash.Bootable e := by
  cases present : found with
  | none => rfl
  | some entry =>
      simp only [Option.filter_some, decide_eq_true_eq,
        same entry present]

theorem slotImage_eq_none {flash : Flash} {slot : Slot}
    (refused : ∀ entry,
      (flash.partitions.find? fun e => e.labelStr == slot.label) =
        some entry → ¬ flash.Bootable entry) :
    flash.slotImage slot = none := by
  cases image : flash.slotImage slot with
  | none => rfl
  | some entry =>
      exact absurd (bootable_of_slotImage image)
        (refused entry (find_of_slotImage image))

section Stores

variable {ota : P4Ota} {flash : Flash}
  {store : UInt32 → ota.OtaData → Flash → Flash × Except ota.Error Unit}

theorem flash_pick_withStore :
    (pick (ota.withStore store) flash).flash =
      match (pickPlan ota flash).2.2 with
      | none => flash
      | some newState =>
          (store otadataPartitionOffset newState flash).1 := by
  rw [pick_flash, persistState_flash, pickPlan_withStore]
  cases (pickPlan ota flash).2.2 <;> rfl

theorem status_pick_withStore
    (framed : ∀ offset state, TouchesSector offset (store offset state)) :
    (pick (ota.withStore store) flash).flash.status = flash.status := by
  rw [flash_pick_withStore]
  cases (pickPlan ota flash).2.2 with
  | none => rfl
  | some newState => exact (framed _ newState flash).1

theorem byte_pick_withStore
    (framed : ∀ offset state, TouchesSector offset (store offset state))
    {address : UInt32}
    (outside : (pickPlan ota flash).2.2.isSome →
      ¬ InRange otadataPartitionOffset sectorSize address) :
    (pick (ota.withStore store) flash).flash.byte address =
      flash.byte address := by
  rw [flash_pick_withStore]
  cases stored : (pickPlan ota flash).2.2 with
  | none => rfl
  | some newState =>
      rw [stored] at outside
      exact (framed _ newState flash).2 address (outside rfl)

/-- Storing otadata leaves the partition table alone. -/
theorem table_pick_withStore
    (framed : ∀ offset state, TouchesSector offset (store offset state)) :
    (pick (ota.withStore store) flash).flash.partitions =
        flash.partitions ∧
      ((pick (ota.withStore store) flash).flash.TableReadable ↔
        flash.TableReadable) := by
  have framed' : ∀ offset state, TouchesSector offset
      ((ota.withStore store).storeToFlash offset state) := framed
  have same : SameRange partitionTableOffset partitionTableReadLen flash
      (pick (ota.withStore store) flash).flash :=
    sameRange_pick framed' (sparesSector_of_apart (by decide)) flash
  constructor
  · rw [Flash.partitions, Flash.partitions,
      same.slice (Nat.le_refl _) (by decide)]
  · exact same.readable (by decide) partitionTableReadLen

/-- The result of `pick` in terms of the images it finds after the store. -/
theorem result_pick_withStore_eq
    (framed : ∀ offset state, TouchesSector offset (store offset state))
    (readable : flash.TableReadable) :
    (pick (ota.withStore store) flash).result =
      match (pick (ota.withStore store) flash).flash.slotImage
          (chosenSlot ota flash) with
      | some entry => .ok (entry, (pickPlan ota flash).2.1)
      | none =>
          match (pick (ota.withStore store) flash).flash.factoryImage with
          | some entry =>
              .ok (entry, .factoryFallback (chosenSlot ota flash))
          | none => .error .noBootableApp := by
  have readable' := (table_pick_withStore framed).2.mpr readable
  have selected := pick_result (ota.withStore store) flash
  have chosen := result_bootChosenSlot (chosenSlot ota flash)
    (pickPlan ota flash).2.1 readable'
  have fallback := result_fallBackToFactory (chosenSlot ota flash) readable'
  rw [chosenSlot, pickPlan_withStore] at selected
  cases image : (pick (ota.withStore store) flash).flash.slotImage
      (chosenSlot ota flash) with
  | some entry =>
      rw [image] at chosen
      exact selected.trans chosen
  | none =>
      rw [image] at chosen
      cases factory : (pick (ota.withStore store) flash).flash.factoryImage
        with
      | some entry =>
          rw [factory] at fallback
          exact selected.trans (chosen.trans fallback)
      | none =>
          rw [factory] at fallback
          exact selected.trans (chosen.trans fallback)

theorem bootable_pick_withStore
    (framed : ∀ offset state, TouchesSector offset (store offset state))
    {entry : PartitionEntry} (spares : OtadataSpares ota flash entry) :
    (pick (ota.withStore store) flash).flash.Bootable entry ↔
      flash.Bootable entry :=
  bootable_congr (status_pick_withStore framed)
    (byte_pick_withStore framed spares)

theorem slotImage_pick_withStore
    (framed : ∀ offset state, TouchesSector offset (store offset state))
    {slot : Slot}
    (spares : ∀ entry,
      (flash.partitions.find? fun e => e.labelStr == slot.label) =
        some entry →
      ((pick (ota.withStore store) flash).flash.Bootable entry ↔
        flash.Bootable entry)) :
    (pick (ota.withStore store) flash).flash.slotImage slot =
      flash.slotImage slot := by
  rw [Flash.slotImage, (table_pick_withStore framed).1]
  exact image_congr spares

theorem factoryImage_pick_withStore
    (framed : ∀ offset state, TouchesSector offset (store offset state))
    (spares : ∀ entry,
      (flash.partitions.find? fun e =>
        e.kind == partTypeApp && e.subtype == partSubtypeFactory) =
          some entry →
      ((pick (ota.withStore store) flash).flash.Bootable entry ↔
        flash.Bootable entry)) :
    (pick (ota.withStore store) flash).flash.factoryImage =
      flash.factoryImage := by
  rw [Flash.factoryImage, (table_pick_withStore framed).1]
  exact image_congr spares

theorem outcome_pickPlan_ne (skipped : Slot) :
    (pickPlan ota flash).2.1 ≠ .factoryFallback skipped := by
  rw [pickPlan_eq]
  exact (bootAction ota flash).outcome_ne_factoryFallback _ skipped

/-- A flash with an image in the right place is not stranded, whatever the
store does to its sector. -/
theorem notStranded_of_served (readable : flash.TableReadable)
    (framed : ∀ offset state, TouchesSector offset (store offset state))
    (served : Served ota flash) :
    NotStranded flash (pick (ota.withStore store) flash) := by
  have result := result_pick_withStore_eq framed readable
  rintro ⟨candidate, image⟩
  cases served with
  | @slot entry chosen spares =>
      have same := bootable_pick_withStore framed spares
      have found := find_of_slotImage chosen
      have bootable := bootable_of_slotImage chosen
      rw [slotImage_pick_withStore framed, chosen] at result
      · refine ⟨entry, _, result, bootable, same.mpr bootable, ?_⟩
        intro skipped fallback
        exact absurd fallback (outcome_pickPlan_ne skipped)
      · intro entry' found'
        rw [found] at found'
        cases found'
        exact same
  | factory noSlot factory =>
      have image : flash.factoryImage = some candidate := by
        rcases image with ⟨slot, inSlot⟩ | inFactory
        · rw [noSlot slot] at inSlot
          cases inSlot
        · exact inFactory
      obtain ⟨spares, spareEmpty⟩ := factory candidate image
      have same := bootable_pick_withStore framed spares
      have bootable := bootable_of_factoryImage image
      have chosen : (pick (ota.withStore store) flash).flash.slotImage
          (chosenSlot ota flash) = none := by
        apply slotImage_eq_none
        rw [(table_pick_withStore framed).1]
        intro empty found accepted
        -- what the store cannot reach is as empty as before
        have readable' : flash.Readable empty.offset 24 := by
          rw [Flash.Readable, ← status_pick_withStore framed]
          exact accepted.1
        have before := (bootable_pick_withStore framed
          (spareEmpty empty found readable')).mp accepted
        have none := noSlot (chosenSlot ota flash)
        rw [Flash.slotImage, found, Option.filter_some,
          if_pos (decide_eq_true before)] at none
        cases none
      rw [chosen, factoryImage_pick_withStore framed, image] at result
      · exact ⟨candidate, _, result, bootable, same.mpr bootable,
          fun _ _ => noSlot⟩
      · intro entry' found'
        rw [find_of_factoryImage image] at found'
        cases found'
        exact same

/-- Without an image in the chosen slot the selection returns the factory
image or nothing. -/
theorem noSlot_of_notStranded (readable : flash.TableReadable)
    (framed : ∀ offset state, TouchesSector offset (store offset state))
    (notStranded : NotStranded flash (pick (ota.withStore store) flash))
    (candidate : ∃ entry, (∃ slot, flash.slotImage slot = some entry) ∨
      flash.factoryImage = some entry)
    (refused : (pick (ota.withStore store) flash).flash.slotImage
      (chosenSlot ota flash) = none) :
    (∀ slot, flash.slotImage slot = none) ∧
      ∃ entry, (pick (ota.withStore store) flash).flash.factoryImage =
        some entry := by
  have result := result_pick_withStore_eq framed readable
  obtain ⟨entry, outcome, selected, _, _, onlyFactory⟩ :=
    notStranded candidate
  rw [refused] at result
  cases factory : (pick (ota.withStore store) flash).flash.factoryImage with
  | none =>
      rw [factory, selected] at result
      cases result
  | some image =>
      rw [factory, selected] at result
      cases result
      exact ⟨onlyFactory _ rfl, _, rfl⟩

end Stores

section Patch

variable {ota : P4Ota} {flash : Flash} {target : UInt32}

theorem framed_patchAt (ota : P4Ota) (target : UInt32) (byte : UInt8)
    (offset : UInt32) (_ : ota.OtaData) :
    TouchesSector offset (patchAt target byte offset
      (.ok () : Except ota.Error Unit)) :=
  touchesSector_patchAt target byte offset _

/-- A store that may change the target does so. -/
theorem flash_pick_patchAt (byte : UInt8)
    (stored : (pickPlan ota flash).2.2.isSome)
    (inside : InRange otadataPartitionOffset sectorSize target) :
    (pick (ota.withStore fun offset _ => patchAt target byte offset
      (.ok ())) flash).flash = flash.patch target byte := by
  obtain ⟨newState, plan⟩ := Option.isSome_iff_exists.mp stored
  rw [flash_pick_withStore, plan]
  exact patchAt_of_inRange inside byte _ flash

/-- A byte that is not the magic makes no header acceptable. -/
theorem bootable_of_bootable_patch {byte : UInt8}
    (notMagic : byte ≠ espImageHeaderMagic) {entry : PartitionEntry}
    (bootable : (flash.patch target byte).Bootable entry) :
    flash.Bootable entry ∧ entry.offset ≠ target := by
  obtain ⟨readable, magic⟩ := bootable_iff_magic.mp bootable
  by_cases same : entry.offset = target
  · rw [same, byte_patch_self] at magic
    exact absurd magic notMagic
  · rw [byte_patch_of_ne flash byte same] at magic
    exact ⟨bootable_iff_magic.mpr ⟨readable, magic⟩, same⟩

end Patch

section Necessity

variable {ota : P4Ota} {flash : Flash}

/-- The selection serves the device whatever a framed store does. -/
def AlwaysServes (ota : P4Ota) (flash : Flash) : Prop :=
  ∀ store : UInt32 → ota.OtaData → Flash → Flash × Except ota.Error Unit,
    (∀ offset state, TouchesSector offset (store offset state)) →
    NotStranded flash (pick (ota.withStore store) flash)

/-- A store that wipes the magic of the chosen image makes `pick` fall
back. -/
theorem spares_chosen (readable : flash.TableReadable)
    (serves : AlwaysServes ota flash) {entry : PartitionEntry}
    (image : flash.slotImage (chosenSlot ota flash) = some entry) :
    OtadataSpares ota flash entry := by
  intro stored inside
  have framed := framed_patchAt ota entry.offset 0
  have patched := flash_pick_patchAt 0 stored inside
  have refused : (pick (ota.withStore fun offset _ =>
      patchAt entry.offset 0 offset (.ok ())) flash).flash.slotImage
        (chosenSlot ota flash) = none := by
    apply slotImage_eq_none
    rw [(table_pick_withStore framed).1]
    intro entry' found accepted
    rw [find_of_slotImage image] at found
    cases found
    rw [patched] at accepted
    exact (bootable_of_bootable_patch (by decide) accepted).2 rfl
  have empty := (noSlot_of_notStranded readable framed
    (serves _ framed) ⟨entry, .inl ⟨_, image⟩⟩ refused).1
  rw [empty] at image
  cases image

/-- A store that changes nothing leaves an empty slot empty. -/
theorem noSlot_of_alwaysServes (readable : flash.TableReadable)
    (serves : AlwaysServes ota flash)
    (chosen : flash.slotImage (chosenSlot ota flash) = none) (slot : Slot) :
    flash.slotImage slot = none := by
  have framed (offset : UInt32) (_ : ota.OtaData) : TouchesSector offset
      fun flash => (flash, (.ok () : Except ota.Error Unit)) :=
    fun _ => ⟨rfl, fun _ _ => rfl⟩
  have kept : (pick (ota.withStore fun _ _ flash =>
      (flash, .ok ())) flash).flash = flash := by
    rw [flash_pick_withStore]
    cases (pickPlan ota flash).2.2 <;> rfl
  cases image : flash.slotImage slot with
  | none => rfl
  | some entry =>
      have empty := (noSlot_of_notStranded readable framed
        (serves _ framed) ⟨entry, .inl ⟨_, image⟩⟩
        (by rw [kept]; exact chosen)).1 slot
      rw [← image, empty]

/-- A store that wipes the magic of the factory image leaves nothing. -/
theorem spares_factory (readable : flash.TableReadable)
    (serves : AlwaysServes ota flash)
    (noSlot : ∀ slot, flash.slotImage slot = none)
    {entry : PartitionEntry} (image : flash.factoryImage = some entry) :
    OtadataSpares ota flash entry := by
  intro stored inside
  have framed := framed_patchAt ota entry.offset 0
  have patched := flash_pick_patchAt 0 stored inside
  have refused : (pick (ota.withStore fun offset _ =>
      patchAt entry.offset 0 offset (.ok ())) flash).flash.slotImage
        (chosenSlot ota flash) = none := by
    apply slotImage_eq_none
    rw [(table_pick_withStore framed).1]
    intro entry' found accepted
    rw [patched] at accepted
    have before := (bootable_of_bootable_patch (by decide) accepted).1
    have none := noSlot (chosenSlot ota flash)
    rw [Flash.slotImage, found, Option.filter_some,
      if_pos (decide_eq_true before)] at none
    cases none
  obtain ⟨other, factory⟩ := (noSlot_of_notStranded readable framed
    (serves _ framed) ⟨entry, .inr image⟩ refused).2
  have found := find_of_factoryImage factory
  have bootable := bootable_of_factoryImage factory
  rw [(table_pick_withStore framed).1, find_of_factoryImage image] at found
  cases found
  rw [patched] at bootable
  exact (bootable_of_bootable_patch (by decide) bootable).2 rfl

/-- A store that writes the magic where the chosen slot starts makes `pick`
return that slot. -/
theorem spares_empty (readable : flash.TableReadable)
    (serves : AlwaysServes ota flash)
    (noSlot : ∀ slot, flash.slotImage slot = none)
    {entry : PartitionEntry} (image : flash.factoryImage = some entry)
    {empty : PartitionEntry}
    (found : (flash.partitions.find? fun e =>
      e.labelStr == (chosenSlot ota flash).label) = some empty)
    (startReadable : flash.Readable empty.offset 24) :
    OtadataSpares ota flash empty := by
  intro stored inside
  have framed := framed_patchAt ota empty.offset espImageHeaderMagic
  have patched := flash_pick_patchAt espImageHeaderMagic stored inside
  have accepted : (pick (ota.withStore fun offset _ => patchAt empty.offset
      espImageHeaderMagic offset (.ok ())) flash).flash.Bootable empty := by
    rw [patched]
    exact bootable_iff_magic.mpr
      ⟨startReadable, byte_patch_self flash empty.offset _⟩
  have result := result_pick_withStore_eq framed readable
  rw [Flash.slotImage, (table_pick_withStore framed).1, found,
    Option.filter_some, if_pos (decide_eq_true accepted)] at result
  obtain ⟨selected, outcome, selection, bootable, _⟩ :=
    serves _ framed ⟨entry, .inr image⟩
  rw [selection] at result
  cases result
  have none := noSlot (chosenSlot ota flash)
  rw [Flash.slotImage, found, Option.filter_some,
    if_pos (decide_eq_true bootable)] at none
  cases none

end Necessity

/-- Whatever the otadata store does to its sector, the selection strands no
device, exactly when the flash has an image where `pick` looks. -/
theorem pick_not_stranded_iff (ota : P4Ota) {flash : Flash}
    (readable : flash.TableReadable) :
    (∀ store : UInt32 → ota.OtaData → Flash →
        Flash × Except ota.Error Unit,
      (∀ offset state, TouchesSector offset (store offset state)) →
      NotStranded flash (pick (ota.withStore store) flash)) ↔
    Served ota flash := by
  constructor
  · intro serves
    cases chosen : flash.slotImage (chosenSlot ota flash) with
    | some entry => exact .slot chosen (spares_chosen readable serves chosen)
    | none =>
        have noSlot := noSlot_of_alwaysServes readable serves chosen
        refine .factory noSlot fun image factory => ⟨?_, ?_⟩
        · exact spares_factory readable serves noSlot factory
        · intro empty found startReadable
          exact spares_empty readable serves noSlot factory found
            startReadable
  · intro served store framed
    exact notStranded_of_served readable framed served

/-- The sample image in the first slot, on trial for the first time. -/
def pendingSlotFlash : Flash :=
  ((Flash.erased.program otadataPartitionOffset [2, 1, 0]).program
    (slotPartition .a).offset
      (samplePayload ++ sampleDigest.toList)).withTable slotTable

theorem pickPlan_pendingSlotFlash :
    pickPlan StandIn.ota pendingSlotFlash =
      (.a, .otaPending .a 1, some ⟨.b, some .a, 1⟩) := by
  have load : StandIn.loadFromFlash otadataPartitionOffset pendingSlotFlash =
      .ok ⟨.b, some .a, 0⟩ := by
    rw [pendingSlotFlash, loadFromFlash_withTable _ (by decide)]
    decide
  have loaded : loadOtadata StandIn.ota pendingSlotFlash =
      (⟨.b, some .a, 0⟩, true) := by
    simp only [loadOtadata, StandIn.ota, load]
  rw [pickPlan, bootAction, loaded]
  rfl

/-- On trial, the chosen slot is booted whatever the store of the next
attempt does to its sector. -/
theorem pick_not_stranded_sample :
    pendingSlotFlash.slotImage .a = some (slotPartition .a) ∧
      (pickPlan StandIn.ota pendingSlotFlash).2.2.isSome ∧
      ∀ store : UInt32 → StandIn.OtaData → Flash →
          Flash × Except Unit Unit,
        (∀ offset state, TouchesSector offset (store offset state)) →
        NotStranded pendingSlotFlash
          (pick (StandIn.ota.withStore store) pendingSlotFlash) := by
  have readable : pendingSlotFlash.TableReadable := rfl
  have found : (slotTable.find? fun e => e.labelStr == Slot.label .a) =
      some (slotPartition .a) := by decide
  have image : pendingSlotFlash.slotImage .a = some (slotPartition .a) := by
    rw [pendingSlotFlash, slotImage_withTable _ (by decide) found (by decide)
      (by decide)]
    decide
  refine ⟨image, by rw [pickPlan_pendingSlotFlash]; rfl, ?_⟩
  apply (pick_not_stranded_iff StandIn.ota readable).mpr
  apply Served.slot
  · rw [chosenSlot, pickPlan_pendingSlotFlash]
    exact image
  · intro _
    decide

/-- A blank first slot strands a device whose second slot is bootable. -/
theorem second_slot_is_not_tried :
    (oneSlotFlash .b).TableReadable ∧
      (oneSlotFlash .b).slotImage .b = some (slotPartition .b) ∧
      (∀ offset state,
        TouchesSector offset (StandIn.ota.storeToFlash offset state)) ∧
      (pick StandIn.ota (oneSlotFlash .b)).result =
        .error .noBootableApp ∧
      ¬ NotStranded (oneSlotFlash .b)
        (pick StandIn.ota (oneSlotFlash .b)) := by
  have readable : (oneSlotFlash .b).TableReadable := rfl
  have image := slotImage_oneSlotFlash .b .b
  have noFactory : (oneSlotFlash .b).factoryImage = none := by
    rw [Flash.factoryImage, oneSlotFlash,
      partitions_withTable _ (by decide)]
    decide
  have result : (pick StandIn.ota (oneSlotFlash .b)).result =
      .error .noBootableApp := by
    rw [pick_result, pick_flash_oneSlotFlash,
      result_bootChosenSlot _ _ readable,
      result_fallBackToFactory _ readable, noFactory, chosenSlot,
      pickPlan_oneSlotFlash, slotImage_oneSlotFlash]
    rfl
  refine ⟨readable, image, (framed_standIn sampleSha).ota, result, ?_⟩
  intro notStranded
  obtain ⟨entry, outcome, selected, _⟩ :=
    notStranded ⟨slotPartition .b, .inl ⟨.b, image⟩⟩
  rw [result] at selected
  cases selected

end MiniBootloader
