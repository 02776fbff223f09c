import MiniBootloader.App
import MiniBootloader.Partition

/-!
# Choosing the slot to boot

The otadata codec and the rollback policy live in another crate, so they are
the fields of `P4Ota`.  Flash is a state here: the policy's new state may be
stored before the partition table is read, and the lookups then read the
flash the store left behind.
-/

namespace MiniBootloader

open Words

def otadataPartitionOffset : UInt32 := 0xF000

inductive Slot where
  | a
  | b
  deriving DecidableEq, Repr

/-- The partition label of a slot. -/
def Slot.label : Slot → String
  | .a => "ota_0"
  | .b => "ota_1"

/-- `p4_ota::BootAction`. -/
inductive BootAction (S : Type) where
  | stable (slot : Slot)
  | pending (slot : Slot) (attempt : UInt8) (newState : S)
  | rollback (fromSlot toSlot : Slot) (newState : S)

/-- What the code uses of the `p4_ota` crate. -/
structure P4Ota where
  OtaData : Type
  Error : Type
  fresh : OtaData
  maxAttempts : UInt8
  loadFromFlash : UInt32 → Flash → Except Error OtaData
  selectSlot : OtaData → UInt8 → BootAction OtaData
  storeToFlash : UInt32 → OtaData → Flash → Flash × Except Error Unit

inductive SelectionOutcome where
  | otaStable (slot : Slot)
  | otaPending (slot : Slot) (attempt : UInt8)
  | otaRollback (fromSlot toSlot : Slot)
  | factoryFallback (skipped : Slot)
  | otaFresh
  deriving DecidableEq, Repr

inductive SlotSelectError where
  | noBootableApp
  | partition (error : PartitionError)
  deriving DecidableEq, Repr

/-- What `pick` does besides choosing: stores of otadata, and reads. -/
inductive PickEvent (S : Type) where
  | otadataStore (offset : UInt32) (newState : S) (stored : Bool)
  | flash (event : Event)

def fallBackToFactory (skipped : Slot) :
    FlashM SlotSelectError (PartitionEntry × SelectionOutcome) := do
  match ← findFactoryApp.attempt with
  | .ok part =>
      match ← (readHeader part.offset).attempt with
      | .ok _ => pure (part, .factoryFallback skipped)
      | .error _ => Traced.throw .noBootableApp
  | .error _ => Traced.throw .noBootableApp

/-- Steps 3 to 5 of `pick`: look the chosen slot up and check its header,
else fall back. -/
def bootChosenSlot (chosenSlot : Slot) (outcome : SelectionOutcome) :
    FlashM SlotSelectError (PartitionEntry × SelectionOutcome) := do
  match ← (findByLabel chosenSlot.label).attempt with
  | .ok part =>
      match ← (readHeader part.offset).attempt with
      | .ok _ => pure (part, outcome)
      | .error _ => fallBackToFactory chosenSlot
  | .error _ => fallBackToFactory chosenSlot

section Pick

variable (ota : P4Ota)

/-- Step 1 of `pick`: the otadata state, and whether it was decoded. -/
def loadOtadata (flash : Flash) : ota.OtaData × Bool :=
  match ota.loadFromFlash otadataPartitionOffset flash with
  | .ok s => (s, true)
  | .error _ => (ota.fresh, false)

def bootAction (flash : Flash) : BootAction ota.OtaData :=
  ota.selectSlot (loadOtadata ota flash).1 ota.maxAttempts

/-- The `match action` of `pick`: the chosen slot, the outcome to report, and
the state to persist. -/
def planAction {S : Type} (decodedOk : Bool) :
    BootAction S → Slot × SelectionOutcome × Option S
  | .stable slot =>
      let outcome := if decodedOk then .otaStable slot else .otaFresh
      (slot, outcome, none)
  | .pending slot attempt newState =>
      (slot, .otaPending slot attempt, some newState)
  | .rollback fromSlot toSlot newState =>
      (toSlot, .otaRollback fromSlot toSlot, some newState)

/-- Store the new state if there is one.  A failed store is logged, and the
boot goes on. -/
def persistState (persist : Option ota.OtaData) (flash : Flash) :
    Flash × List (PickEvent ota.OtaData) :=
  match persist with
  | none => (flash, [])
  | some newState =>
      let (flash', stored) :=
        ota.storeToFlash otadataPartitionOffset newState flash
      (flash', [.otadataStore otadataPartitionOffset newState stored.isOk])

def pick (flash : Flash) :
    FlashRun (PickEvent ota.OtaData) SlotSelectError
      (PartitionEntry × SelectionOutcome) :=
  let (state, decodedOk) := loadOtadata ota flash
  let action := ota.selectSlot state ota.maxAttempts
  let (chosenSlot, outcome, persist) := planAction decodedOk action
  let (flash', stores) := persistState ota persist flash
  let lookup := (bootChosenSlot chosenSlot outcome).run flash'
  { flash := flash'
    events := stores ++ lookup.trace.map .flash
    result := lookup.result }

/-- The slot `pick` chooses on a flash, and the state it then persists. -/
def pickPlan (flash : Flash) :
    Slot × SelectionOutcome × Option ota.OtaData :=
  planAction (loadOtadata ota flash).2 (bootAction ota flash)

def chosenSlot (flash : Flash) : Slot :=
  (pickPlan ota flash).1

theorem pick_flash (flash : Flash) :
    (pick ota flash).flash =
      (persistState ota (pickPlan ota flash).2.2 flash).1 := rfl

theorem pick_events (flash : Flash) :
    (pick ota flash).events =
      (persistState ota (pickPlan ota flash).2.2 flash).2 ++
        ((bootChosenSlot (chosenSlot ota flash)
          (pickPlan ota flash).2.1).run
            (pick ota flash).flash).trace.map .flash := rfl

/-- The lookups run on the flash the store left behind. -/
theorem pick_result (flash : Flash) :
    (pick ota flash).result =
      ((bootChosenSlot (chosenSlot ota flash)
        (pickPlan ota flash).2.1).run (pick ota flash).flash).result := rfl

end Pick

/-! ## The parts of an action -/

namespace BootAction

variable {S : Type}

/-- The slot to boot. -/
def slot : BootAction S → Slot
  | .stable slot => slot
  | .pending slot _ _ => slot
  | .rollback _ toSlot _ => toSlot

/-- The otadata to store. -/
def newState : BootAction S → Option S
  | .stable _ => none
  | .pending _ _ newState => some newState
  | .rollback _ _ newState => some newState

/-- The outcome of booting the slot of the action. -/
def outcome (decodedOk : Bool) : BootAction S → SelectionOutcome
  | .stable slot => if decodedOk then .otaStable slot else .otaFresh
  | .pending slot attempt _ => .otaPending slot attempt
  | .rollback fromSlot toSlot _ => .otaRollback fromSlot toSlot

end BootAction

theorem planAction_eq {S : Type} (decodedOk : Bool)
    (action : BootAction S) :
    planAction decodedOk action =
      (action.slot, action.outcome decodedOk, action.newState) := by
  cases action <;> rfl

theorem pickPlan_eq (ota : P4Ota) (flash : Flash) :
    pickPlan ota flash =
      ((bootAction ota flash).slot,
        (bootAction ota flash).outcome (loadOtadata ota flash).2,
        (bootAction ota flash).newState) :=
  planAction_eq _ _

/-- The fallback outcome is reported by the fallback only. -/
theorem BootAction.outcome_ne_factoryFallback {S : Type}
    (decodedOk : Bool) (action : BootAction S) (skipped : Slot) :
    action.outcome decodedOk ≠ .factoryFallback skipped := by
  cases action with
  | stable slot => cases decodedOk <;> simp [BootAction.outcome]
  | pending slot attempt newState => simp [BootAction.outcome]
  | rollback fromSlot toSlot newState => simp [BootAction.outcome]

/-! ## Candidates -/

/-- The partition a lookup finds, if its image header is accepted. -/
def Flash.Bootable (flash : Flash) (entry : PartitionEntry) : Prop :=
  flash.Readable entry.offset 24 ∧
    (flash.header entry.offset).magic = espImageHeaderMagic

instance (flash : Flash) (entry : PartitionEntry) :
    Decidable (flash.Bootable entry) :=
  inferInstanceAs (Decidable (_ ∧ _))

theorem bootable_iff {flash : Flash} {entry : PartitionEntry} :
    flash.Bootable entry ↔
      ∃ header, ((readHeader entry.offset).run flash).result =
        .ok header := by
  simp only [result_readHeader_eq_ok_iff, Flash.Bootable]
  constructor
  · rintro ⟨readable, magic⟩
    exact ⟨_, readable, magic, rfl⟩
  · rintro ⟨_, readable, magic, _⟩
    exact ⟨readable, magic⟩

/-! ## One candidate and what is tried without it -/

/-- The lookup yields this partition and its image header is accepted. -/
def Flash.Offers (flash : Flash)
    (lookup : FlashM PartitionError PartitionEntry)
    (part : PartitionEntry) : Prop :=
  (lookup.run flash).result = .ok part ∧
    ∃ header, ((readHeader part.offset).run flash).result = .ok header

theorem Flash.Offers.unique {flash : Flash}
    {lookup : FlashM PartitionError PartitionEntry}
    {part part' : PartitionEntry} (offers : flash.Offers lookup part)
    (offers' : flash.Offers lookup part') : part' = part := by
  have found := offers.1
  rw [offers'.1] at found
  exact Except.ok.inj found

/-- Both `bootChosenSlot` and the factory fallback try one lookup and leave
the rest to a second computation. -/
def tryCandidate (lookup : FlashM PartitionError PartitionEntry)
    (outcome : SelectionOutcome)
    (otherwise :
      FlashM SlotSelectError (PartitionEntry × SelectionOutcome)) :
    FlashM SlotSelectError (PartitionEntry × SelectionOutcome) := do
  match ← lookup.attempt with
  | .ok part =>
      match ← (readHeader part.offset).attempt with
      | .ok _ => pure (part, outcome)
      | .error _ => otherwise
  | .error _ => otherwise

theorem fallBackToFactory_eq (skipped : Slot) :
    fallBackToFactory skipped =
      tryCandidate findFactoryApp (.factoryFallback skipped)
        (Traced.throw .noBootableApp) := rfl

theorem bootChosenSlot_eq (slot : Slot) (outcome : SelectionOutcome) :
    bootChosenSlot slot outcome =
      tryCandidate (findByLabel slot.label) outcome
        (fallBackToFactory slot) := rfl

section Candidate

variable {flash : Flash} {lookup : FlashM PartitionError PartitionEntry}
  {otherwise : FlashM SlotSelectError (PartitionEntry × SelectionOutcome)}

theorem result_tryCandidate_of_offers {part : PartitionEntry}
    (outcome : SelectionOutcome) (offers : flash.Offers lookup part) :
    ((tryCandidate lookup outcome otherwise).run flash).result =
      .ok (part, outcome) := by
  obtain ⟨found, header, headerRead⟩ := offers
  simp only [tryCandidate, Traced.run_bind, Traced.run_attempt, found,
    headerRead, Traced.run_pure]

theorem result_tryCandidate_of_not_offers (outcome : SelectionOutcome)
    (nothing : ∀ part, ¬ flash.Offers lookup part) :
    ((tryCandidate lookup outcome otherwise).run flash).result =
      (otherwise.run flash).result := by
  cases found : (lookup.run flash).result with
  | error error =>
      simp only [tryCandidate, Traced.run_bind, Traced.run_attempt, found]
  | ok part =>
      cases headerRead : ((readHeader part.offset).run flash).result with
      | error error =>
          simp only [tryCandidate, Traced.run_bind, Traced.run_attempt,
            found, headerRead]
      | ok header =>
          exact (nothing part ⟨found, header, headerRead⟩).elim

end Candidate

end MiniBootloader
