import MiniBootloader.InstalledImages
import MiniBootloader.Library.Updates

/-!
# Updates of a device

The boots of a device and what its app does in between, as steps on the
flash.  The app stages images in the slot that is not the stable one and
confirms the image it runs from; it may write anything else as long as it
leaves otadata and the installed images alone.  Such runs follow an update
under probation, so every boot is the one that the labels of the steps
predict.
-/

namespace MiniBootloader

open Words

abbrev SlotUpdate := Update Slot AppImage

abbrev SlotAction := UpdateAction Slot AppImage Boot

section Steps

variable (P : Platform) (view : OtaView P.ota.OtaData)
  (digest : List UInt8 → Digest)

/-- One step of a device.  The conditions on the app are those of its part of
the update protocol. -/
inductive UpdateStep : Flash → SlotAction → Flash → Prop where
  | boot {boot : Boot}
      (stored : ∀ newState, (boot.plan P).2.2 = some newState →
        (P.ota.storeToFlash otadataPartitionOffset newState
          (flashAtPick P boot.cause boot.flash)).2 = .ok ()) :
      UpdateStep boot.flash (.boot boot) (main P boot.cause boot.flash).flash
  | stage {before after : Flash} {probation : Probation Slot}
      {candidate : Slot} {image : Option AppImage}
      (decoded : OnProbation P view before probation)
      (apart : candidate ≠ probation.stable)
      (stored : OnProbation P view after
        (.trial probation.stable candidate 0))
      (written : ∀ staged, image = some staged →
        Installed digest after candidate staged)
      (kept : ∀ slot installed, slot ≠ candidate →
        Installed digest before slot installed →
        Installed digest after slot installed) :
      UpdateStep before (.stage candidate image) after
  | confirm {before after : Flash} {stable candidate : Slot}
      {attempts : Nat} {image : AppImage}
      (decoded : OnProbation P view before
        (.trial stable candidate attempts))
      (running : Installed digest before candidate image)
      (stored : OnProbation P view after (.settled candidate))
      (kept : ∀ slot installed, Installed digest before slot installed →
        Installed digest after slot installed) :
      UpdateStep before (.confirm image) after
  | other {before after : Flash}
      (otadata : ∀ probation, OnProbation P view before probation →
        OnProbation P view after probation)
      (kept : ∀ slot installed, Installed digest before slot installed →
        Installed digest after slot installed) :
      UpdateStep before .other after

/-- The flash holds what the update says. -/
structure Follows (flash : Flash) (update : SlotUpdate) : Prop where
  probation : OnProbation P view flash update.probation
  installed : ∀ slot image, update.installed slot = some image →
    Installed digest flash slot image

end Steps

section Runs

variable {P : Platform} {view : OtaView P.ota.OtaData}
  {digest : List UInt8 → Digest}

/-- Otadata decodes to one state. -/
theorem OnProbation.unique {flash : Flash}
    {probation probation' : Probation Slot}
    (on : OnProbation P view flash probation)
    (on' : OnProbation P view flash probation') : probation' = probation := by
  obtain ⟨state, loaded, rfl⟩ := on
  obtain ⟨state', loaded', rfl⟩ := on'
  cases loaded.symm.trans loaded'
  rfl

/-- A step does to the flash what its label does to the update, and is one
that an update allows. -/
theorem Follows.step (policy : P.ota.FollowsPolicy view)
    (durable : P.ota.Durable) (framed : P.Framed) {before after : Flash}
    {action : SlotAction} {update : SlotUpdate}
    (follows : Follows P view digest before update)
    (step : UpdateStep P view digest before action after) :
    update.Allows action ∧
      Follows P view digest after
        (update.act P.ota.maxAttempts.toNat action) := by
  obtain ⟨probation, installed⟩ := follows
  cases step with
  | boot stored =>
      rename_i boot
      refine ⟨trivial, ?_, ?_⟩
      · exact onProbation_next policy durable framed.toReportsFramed
          probation ⟨.refl _ _ _, stored, rfl⟩
      · intro slot image present
        rw [main_flash]
        exact (installed slot image present).bootPick framed boot.cause
  | stage decoded apart stored written kept =>
      rename_i staging candidate image
      have same := decoded.unique probation
      rw [← same] at apart stored
      refine ⟨apart, stored, ?_⟩
      intro slot image' present
      rw [Update.installed_stage] at present
      by_cases here : slot = candidate
      · rw [if_pos here] at present
        rw [here]
        exact written image' present
      · rw [if_neg here] at present
        exact kept slot image' here (installed slot image' present)
  | confirm decoded running stored kept =>
      rename_i stable candidate attempts image
      obtain ⟨settled, holds⟩ := Update.confirm_of_trial
        (decoded.unique probation) image
      refine ⟨trivial, ?_, ?_⟩
      · rw [Update.act, settled]
        exact stored
      · intro slot image' present
        rw [Update.act, holds] at present
        by_cases here : slot = candidate
        · rw [if_pos here, Option.some.injEq] at present
          rw [here, ← present]
          exact kept candidate image running
        · rw [if_neg here] at present
          exact kept slot image' (installed slot image' present)
  | other otadata kept =>
      refine ⟨trivial, otadata _ probation, ?_⟩
      intro slot image present
      exact kept slot image (installed slot image present)

/-- After any run the flash holds what the labels say. -/
theorem Follows.run (policy : P.ota.FollowsPolicy view)
    (durable : P.ota.Durable) (framed : P.Framed) {first last : Flash}
    {actions : List SlotAction} {update : SlotUpdate}
    (follows : Follows P view digest first update)
    (run : Run (UpdateStep P view digest) first actions last) :
    Follows P view digest last
      (update.after P.ota.maxAttempts.toNat actions) := by
  apply run.simulates_foldl follows
  intro before action after update follows step
  exact (follows.step policy durable framed step).2

theorem chosen_plannedFor (decision : Probation.Decision Slot) :
    (plannedFor decision).1 = decision.chosen := by
  cases decision <;> rfl

/-- One boot chooses the slot the update says, and jumps into the image the
update has there. -/
theorem Follows.boot (policy : P.ota.FollowsPolicy view)
    (durable : P.ota.Durable) (framed : P.Framed)
    (streams : P.sha.Streams digest) {before after : Flash} {boot : Boot}
    {update : SlotUpdate} (follows : Follows P view digest before update)
    (step : UpdateStep P view digest before (.boot boot) after) :
    boot.chosen P = update.chosen P.ota.maxAttempts.toNat ∧
      ∀ image,
        update.installed (update.chosen P.ota.maxAttempts.toNat) =
          some image →
        JumpedInto image (main P boot.cause boot.flash) := by
  cases step with
  | boot _ =>
      have planned := plan_of_otadata policy durable.sector
        framed.toReportsFramed follows.probation (.refl _ _ _)
      have chosen : boot.chosen P =
          update.chosen P.ota.maxAttempts.toNat := by
        rw [Update.chosen, ← chosen_plannedFor, ← planned]
        rfl
      refine ⟨chosen, ?_⟩
      intro image present
      exact (follows.installed _ image present).jumpedInto framed streams
        chosen

theorem Follows.allAllowed (policy : P.ota.FollowsPolicy view)
    (durable : P.ota.Durable) (framed : P.Framed) {first last : Flash}
    {actions : List SlotAction} {update : SlotUpdate}
    (follows : Follows P view digest first update)
    (run : Run (UpdateStep P view digest) first actions last) :
    update.AllAllowed P.ota.maxAttempts.toNat actions := by
  intro past action future split
  rw [split] at run
  obtain ⟨before, after, toBefore, step, _⟩ := run.split
  exact ((follows.run policy durable framed toBefore).step policy durable
    framed step).1

/-- Whatever is staged, confirmed or given up, in any order, every boot
chooses the slot that the update under probation says and jumps into the
image installed there; and of any boots in a row, one more than the limit of
attempts, one jumps into the image of the stable slot.  So no update, good or
bad, keeps a device from its stable image for longer than that. -/
theorem updates_never_strand (policy : P.ota.FollowsPolicy view)
    (durable : P.ota.Durable) (framed : P.Framed)
    (streams : P.sha.Streams digest) {first last : Flash}
    {actions : List SlotAction} {update : SlotUpdate}
    (follows : Follows P view digest first update) (sound : update.Sound)
    (run : Run (UpdateStep P view digest) first actions last) :
    let limit := P.ota.maxAttempts.toNat
    (∀ past boot future, actions = past ++ .boot boot :: future →
      let here := update.after limit past
      boot.chosen P = here.chosen limit ∧
        ∀ image, here.installed (here.chosen limit) = some image →
          JumpedInto image (main P boot.cause boot.flash)) ∧
    ∀ past (boots : List Boot) future,
      actions = past ++ (boots.map .boot ++ future) →
      limit < boots.length →
      ∃ boot ∈ boots, ∃ image,
        (update.after limit past).installed
            (update.after limit past).probation.stable = some image ∧
          JumpedInto image (main P boot.cause boot.flash) := by
  intro limit
  have each : ∀ past boot future, actions = past ++ .boot boot :: future →
      boot.chosen P = (update.after limit past).chosen limit ∧
        ∀ image, (update.after limit past).installed
            ((update.after limit past).chosen limit) = some image →
          JumpedInto image (main P boot.cause boot.flash) := by
    intro past boot future split
    have whole := run
    rw [split] at whole
    obtain ⟨before, after, toBefore, step, _⟩ := whole.split
    exact (follows.run policy durable framed toBefore).boot policy durable
      framed streams step
  refine ⟨each, ?_⟩
  intro past boots future split many
  obtain ⟨image, present⟩ := sound.after
    (follows.allAllowed policy durable framed run) split
  obtain ⟨earlier, boot, later, order, chosen⟩ :=
    Update.exists_boot_of_stable (update.after limit past) many
  have position : actions = (past ++ earlier.map .boot) ++
      .boot boot :: (later.map .boot ++ future) := by
    rw [split, order, List.map_append, List.map_cons]
    simp only [List.append_assoc, List.cons_append]
  obtain ⟨_, jumped⟩ := each _ boot _ position
  rw [Update.after_append, chosen,
    (Update.probation_after_boots limit _ earlier).2] at jumped
  refine ⟨boot, ?_, image, present, jumped image present⟩
  rw [order]
  exact List.mem_append_right _ List.mem_cons_self

end Runs

/-! ## A sample -/

/-- The second slot is on trial and holds nothing. -/
def trialFlash : Flash :=
  Flash.withTable (StandIn.ota.storeToFlash otadataPartitionOffset
    (⟨.a, some .b, 0⟩ : StandIn.OtaData) sampleFlash).1 slotTable

theorem installed_trialFlash :
    Installed sampleHash trialFlash .a sampleImage := by
  refine ⟨rfl, slotPartition .a, 0xEF, ?_, ?_, fun _ _ _ => rfl, ?_, ?_⟩
  · rw [trialFlash, partitions_withTable _ (by decide)]
    decide
  · rw [Flash.Holds]
    decide +kernel
  · decide
  · decide +kernel

theorem load_trialFlash (sha : Sha256) :
    (standIn sha).ota.loadFromFlash otadataPartitionOffset trialFlash =
      .ok (⟨.a, some .b, 0⟩ : StandIn.OtaData) := by
  have reader : (standIn sha).ota.loadFromFlash = StandIn.loadFromFlash :=
    rfl
  have stored : StandIn.ota.loadFromFlash otadataPartitionOffset _ = _ :=
    durable_standIn.stored otadataPartitionOffset
      (⟨.a, some .b, 0⟩ : StandIn.OtaData) sampleFlash rfl
  rw [reader, trialFlash, loadFromFlash_withTable _ (by decide)]
  exact stored

/-- An update of the sample image, for another address. -/
def candidateImage : AppImage :=
  { sampleImage with
    entryAddr := 0x4FF60000
    segments :=
      [{ loadAddr := 0x4FF60000
         data := [0x14, 0, 0, 0]
         addrAligned := by decide
         lenAligned := by decide
         small := by decide }]
    count := by decide }

/-- The device stores an otadata state. -/
def storeState (state : StandIn.OtaData) (flash : Flash) : Flash :=
  (StandIn.ota.storeToFlash otadataPartitionOffset state flash).1

theorem onProbation_storeState (state : StandIn.OtaData) (flash : Flash) :
    OnProbation (standIn sampleSha) StandIn.OtaData.view
      (storeState state flash) (StandIn.OtaData.view.probation state) :=
  ⟨state, durable_standIn.stored otadataPartitionOffset state flash rfl,
    rfl⟩

theorem installed_storeState {flash : Flash} {slot : Slot}
    {image : AppImage} (state : StandIn.OtaData)
    (installed : Installed sampleHash flash slot image) :
    Installed sampleHash (storeState state flash) slot image :=
  installed.stored ((framed_standIn sampleSha).ota _ state) (by decide)

/-- The sample image is stable, and nothing else is installed. -/
def settledFlash : Flash :=
  storeState ⟨.a, none, 0⟩ trialFlash

def settledUpdate : SlotUpdate :=
  { probation := .settled .a
    installed := fun slot => if slot = .a then some sampleImage else none }

/-- The app has written the candidate to the second slot. -/
def writtenFlash : Flash :=
  settledFlash.program (slotPartition .b).offset
    (candidateImage.encode sampleHash 0xEF)

theorem partitions_settledFlash : settledFlash.partitions = slotTable := by
  have table : SameRange partitionTableOffset partitionTableReadLen
      trialFlash settledFlash :=
    ((framed_standIn sampleSha).ota _ _).sameRange
      (sparesSector_of_apart (by decide)) _
  rw [Flash.partitions, table.slice (Nat.le_refl _) (by decide),
    ← Flash.partitions, trialFlash, partitions_withTable _ (by decide)]

theorem follows_settledFlash :
    Follows (standIn sampleSha) StandIn.OtaData.view sampleHash settledFlash
      settledUpdate := by
  constructor
  · exact onProbation_storeState ⟨.a, none, 0⟩ trialFlash
  · intro slot image present
    cases slot with
    | a =>
        cases present
        exact installed_storeState _ installed_trialFlash
    | b => cases present

/-- Writing the candidate touches its own slot only. -/
theorem sameRange_writtenFlash {start : UInt32} {len : Nat}
    (front : start.toNat + len ≤ 0xE0000) :
    SameRange start len settledFlash writtenFlash := by
  constructor
  · intro address inside
    have bound := (inRange_iff_of_le (by omega)).mp inside
    apply byte_program_of_not_inRange
    intro written
    have length : (candidateImage.encode sampleHash 0xEF).length = 80 := by
      decide
    rw [length] at written
    have behind := (inRange_iff_of_le (by decide)).mp written
    have offset : (slotPartition .b).offset.toNat = 0xE0000 := rfl
    omega
  · intro address size _
    rfl

theorem sameRange_table_writtenFlash :
    SameRange partitionTableOffset partitionTableReadLen settledFlash
      writtenFlash :=
  sameRange_writtenFlash (Nat.le_of_ble_eq_true rfl)

theorem partitions_writtenFlash : writtenFlash.partitions = slotTable := by
  rw [Flash.partitions, sameRange_table_writtenFlash.slice (Nat.le_refl _)
    (by decide), ← Flash.partitions, partitions_settledFlash]

theorem installed_writtenFlash :
    Installed sampleHash writtenFlash .b candidateImage := by
  refine ⟨rfl, slotPartition .b, 0xEF, ?_, ?_, fun _ _ _ => rfl, ?_, ?_⟩
  · rw [partitions_writtenFlash]
    decide
  · exact holds_program settledFlash _ (by decide)
  · decide
  · decide

theorem kept_writtenFlash {slot : Slot} {image : AppImage}
    (other : slot ≠ .b)
    (installed : Installed sampleHash settledFlash slot image) :
    Installed sampleHash writtenFlash slot image := by
  cases slot with
  | b => exact absurd rfl other
  | a =>
      apply installed.of_same sameRange_table_writtenFlash
      · rw [writtenFlash, Flash.program]
      · intro entry found _ _
        have first : slotTable.find? (fun e => e.labelStr == Slot.a.label) =
            some (slotPartition .a) := by decide
        rw [partitions_settledFlash, first, Option.some.injEq] at found
        subst found
        apply sameRange_writtenFlash
        decide +kernel

/-- A step of the sample device. -/
abbrev SampleStep : Flash → SlotAction → Flash → Prop :=
  UpdateStep (standIn sampleSha) StandIn.OtaData.view sampleHash

theorem stage_candidateImage :
    SampleStep settledFlash (.stage .b (some candidateImage))
      (storeState ⟨.a, some .b, 0⟩ writtenFlash) := by
  refine .stage follows_settledFlash.probation (by decide)
    (onProbation_storeState ⟨.a, some .b, 0⟩ writtenFlash) ?_ ?_
  · intro staged same
    cases same
    exact installed_storeState _ installed_writtenFlash
  · intro slot installed other present
    exact installed_storeState _ (kept_writtenFlash other present)

/-- The candidate is staged, boots and is confirmed; then the first slot is
given a candidate that is no image. -/
theorem exists_run_settledFlash (causes : List Cause) :
    ∃ (first : Boot) (boots : List Boot) (last : Flash),
      boots.length = causes.length ∧
      Run SampleStep settledFlash
        ([.stage .b (some candidateImage), .boot first,
          .confirm candidateImage, .stage .a none] ++ boots.map .boot)
        last := by
  have staged := (follows_settledFlash.step followsPolicy_standIn
    durable_standIn (framed_standIn sampleSha) stage_candidateImage).2
  let first : Boot := ⟨.powerOn, storeState ⟨.a, some .b, 0⟩ writtenFlash⟩
  let booted := (main (standIn sampleSha) first.cause first.flash).flash
  have boot : SampleStep first.flash (.boot first) booted :=
    .boot fun _ _ => rfl
  have tried := (staged.step followsPolicy_standIn durable_standIn
    (framed_standIn sampleSha) boot).2
  have confirm : SampleStep booted (.confirm candidateImage)
      (storeState ⟨.b, none, 0⟩ booted) :=
    .confirm tried.probation (tried.installed .b candidateImage rfl)
      (onProbation_storeState ⟨.b, none, 0⟩ booted)
      fun _ _ => installed_storeState _
  let spoiled := storeState ⟨.b, some .a, 0⟩ (storeState ⟨.b, none, 0⟩ booted)
  have spoil : SampleStep (storeState ⟨.b, none, 0⟩ booted)
      (.stage .a none) spoiled := by
    refine .stage (onProbation_storeState ⟨.b, none, 0⟩ booted) (by decide)
      (onProbation_storeState ⟨.b, some .a, 0⟩ _) ?_ ?_
    · intro staged same
      cases same
    · intro slot installed _ present
      exact installed_storeState _ present
  let step (before : Flash) (boot : Boot) (after : Flash) : Prop :=
    SampleStep before (.boot boot) after
  have again (cause : Cause) (flash : Flash) : step flash ⟨cause, flash⟩
      (main (standIn sampleSha) cause flash).flash :=
    @UpdateStep.boot _ _ _ ⟨cause, flash⟩ fun _ _ => rfl
  obtain ⟨last, run⟩ := exists_run_successiveBoots again causes spoiled
  refine ⟨first, _, last,
    length_successiveBoots (standIn sampleSha) causes spoiled, ?_⟩
  exact .cons stage_candidateImage (.cons boot (.cons confirm (.cons spoil
    (run.relabel UpdateAction.boot))))

theorem updates_never_strand_sample :
    ∃ (first : Boot) (boots : List Boot) (last : Flash),
      boots.length = 4 ∧
      Run SampleStep settledFlash
        ([.stage .b (some candidateImage), .boot first,
          .confirm candidateImage, .stage .a none] ++ boots.map .boot)
        last ∧
      JumpedInto candidateImage
        (main (standIn sampleSha) first.cause first.flash) ∧
      ∃ boot ∈ boots, JumpedInto candidateImage
        (main (standIn sampleSha) boot.cause boot.flash) := by
  obtain ⟨first, boots, last, many, run⟩ :=
    exists_run_settledFlash (List.replicate 4 .superWatchdog)
  have sound : settledUpdate.Sound := ⟨sampleImage, rfl⟩
  obtain ⟨each, rescued⟩ := updates_never_strand followsPolicy_standIn
    durable_standIn (framed_standIn sampleSha)
    (Sha256.streams_buffered sampleHash) follows_settledFlash sound run
  obtain ⟨_, jumped⟩ := each [.stage .b (some candidateImage)] first _ rfl
  obtain ⟨boot, member, image, present, rescue⟩ := rescued
    [.stage .b (some candidateImage), .boot first, .confirm candidateImage,
      .stage .a none] boots [] (by rw [List.append_nil])
    (by rw [many]; decide)
  cases present
  exact ⟨first, boots, last, many, run, jumped candidateImage rfl, boot,
    member, rescue⟩

end MiniBootloader
