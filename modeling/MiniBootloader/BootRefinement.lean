import MiniBootloader.BootSequence

/-!
# The boot sequence refines its outline

Erasing what is not a store, a read or a copy from the boot sequence leaves
the outline that the results about booted images are stated on: the same
flash, the same events, the same result.  Each part is erased on its own.
-/

namespace MiniBootloader

/-- What the outline sees of a step. -/
def BootStep.seen {P : Platform} : BootStep P → Option (BootEvent P)
  | .boot event => some event
  | _ => none

namespace Sequence

section Outline

variable {P : Platform} {ω ε α β : Type}

abbrev outline (body : BootM P ε α) :
    Effectful Flash (BootEvent P) ε α :=
  body.erase BootStep.seen

theorem outline_bind (first : BootM P ε α) (next : α → BootM P ε β) :
    outline (first >>= next) =
      outline first >>= fun value => outline (next value) :=
  Effectful.erase_bind _ first next

theorem outline_print (text : Numerals.Text) :
    outline (print text : BootM P ε Unit) = pure () :=
  Effectful.erase_emit_of_none BootStep.seen rfl

theorem outline_print_bind (text : Numerals.Text)
    (next : Unit → BootM P ε β) :
    outline (print text >>= next) = outline (next ()) := by
  rw [outline_bind, outline_print]
  rfl

theorem outline_attempt {ε' : Type} (body : BootM P ε α) :
    outline (body.attempt : BootM P ε' (Except ε α)) =
      (outline body).attempt := rfl

/-- A step of the hardware leaves no event. -/
theorem outline_act_bind {step : BootStep P} (hidden : step.seen = none)
    (next : Unit → BootM P ε β) :
    outline (Effectful.emit step >>= next) = outline (next ()) := by
  rw [outline_bind, outline, Effectful.erase_emit_of_none BootStep.seen hidden]
  rfl

theorem run_outline_ask_bind (view : Flash → α) (next : α → BootM P ε β)
    (flash : Flash) :
    (outline (Effectful.ask view >>= next)).run flash =
      (outline (next (view flash))).run flash := rfl

theorem outline_bootEvent (event : BootEvent P) :
    outline (bootEvent event : BootM P ε Unit) = Effectful.emit event :=
  Effectful.erase_emit_of_some BootStep.seen rfl

theorem outline_halt (reason : Halt) :
    outline (halt reason : BootM P Halt α) = Effectful.throw reason := by
  rw [halt, outline_print_bind]
  rfl

/-! ## The image -/

theorem outline_showImage (body : FlashM ε α) :
    outline (P := P) (Effectful.observe body showImage) =
      Effectful.observe body fun event => [BootEvent.image event] := by
  apply Effectful.erase_observe
  intro event
  cases event <;> rfl

theorem outline_showPick (body : FlashM ε α) :
    outline (P := P) (Effectful.observe body showPick) =
      Effectful.observe body fun event => [BootEvent.pick (.flash event)] :=
  Effectful.erase_observe BootStep.seen (fun _ => rfl) body

/-- Reading the image and handing its error to the heartbeat loop. -/
theorem outline_try (body : FlashM ε α) (reason : ε → Halt)
    {next : Except ε α → BootM P Halt β}
    (failed : ∀ error, next (.error error) = halt (reason error)) :
    outline ((Effectful.observe body showImage).attempt >>= next) =
      Effectful.observe (body.mapError reason)
          (fun event => [BootEvent.image event]) >>=
        fun value => outline (next (.ok value)) := by
  have rethrown (error : ε) :
      outline (next (.error error)) = Effectful.throw (reason error) := by
    rw [failed]
    exact outline_halt _
  rw [outline_bind, outline_attempt, outline_showImage,
    Effectful.attempt_bind reason rethrown, Effectful.observe_mapError]

theorem outline_readImage (off : UInt32) :
    outline (readImage off : BootM P Halt ImageHeader) =
      Effectful.observe ((readHeader off).mapError Halt.header)
        fun event => [BootEvent.image event] := by
  have printed (header : ImageHeader) :
      outline (print (headerLine header) >>= fun _ => pure header :
        BootM P Halt ImageHeader) = pure header :=
    outline_print_bind _ _
  rw [readImage, outline_try _ Halt.header fun _ => rfl]
  exact (Effectful.bind_congr printed).trans (Effectful.bind_pure _)

theorem outline_verifyGate (off : UInt32) (header : ImageHeader) :
    outline (verifyGate off header : BootM P Halt Unit) =
      Effectful.observe (MiniBootloader.verifyGate P.sha off header)
        fun event => [BootEvent.image event] := by
  rw [verifyGate, MiniBootloader.verifyGate]
  split
  · rw [outline_try _ Halt.verify fun _ => rfl, Effectful.observe_bind]
    exact Effectful.bind_congr fun d => outline_print (digestLine d)
  · exact outline_print _

theorem outline_loadImage (off : UInt32) (header : ImageHeader) :
    outline (loadImage off header : BootM P Halt Unit) =
      Effectful.observe ((loadSegments off header).mapError Halt.load)
        fun event => [BootEvent.image event] := by
  rw [loadImage, outline_try _ Halt.load fun _ => rfl]
  exact Effectful.bind_pure _

theorem outline_handOff (entryAddr : UInt32) :
    outline (handOff entryAddr : BootM P Halt UInt32) = pure entryAddr := by
  have jump : outline (jumpToEntry entryAddr : BootM P Halt Unit) =
      pure () := by
    rw [jumpToEntry, outline_act_bind rfl, outline_act_bind rfl,
      outline_act_bind rfl]
    exact Effectful.erase_emit_of_none BootStep.seen rfl
  rw [handOff, outline_print_bind, outline_print_bind, outline_act_bind rfl,
    outline_act_bind rfl, outline_bind, jump]
  rfl

theorem outline_bootImage (off : UInt32) :
    outline (bootImage off : BootM P Halt UInt32) =
      Effectful.observe (MiniBootloader.bootImage P.sha off)
        fun event => [BootEvent.image event] := by
  rw [bootImage, MiniBootloader.bootImage, outline_bind, outline_readImage,
    Effectful.observe_bind]
  apply Effectful.bind_congr
  intro header
  rw [outline_bind, outline_verifyGate, Effectful.observe_bind]
  apply Effectful.bind_congr
  intro _
  rw [outline_bind, outline_loadImage, Effectful.observe_bind]
  apply Effectful.bind_congr
  intro _
  exact outline_handOff header.entryAddr

/-! ## Picking the slot -/

variable (texts : Texts P)

/-- Reading for the picker and going on with the result. -/
theorem outline_look {ε' : Type} (body : FlashM ε α)
    {next : Except ε α → BootM P ε' β} {done : Except ε α → FlashM ε' β}
    (passed : ∀ result, outline (next result) =
      Effectful.observe (done result)
        fun event => [BootEvent.pick (.flash event)]) :
    outline ((Effectful.observe body showPick).attempt >>= next) =
      Effectful.observe (body.attempt >>= done)
        fun event => [BootEvent.pick (.flash event)] := by
  rw [outline_bind, outline_attempt, outline_showPick,
    Effectful.observe_bind, Effectful.observe_attempt]
  exact Effectful.bind_congr passed

theorem outline_fallBackToFactory (skipped : Slot) :
    outline (fallBackToFactory texts skipped) =
      Effectful.observe (MiniBootloader.fallBackToFactory skipped)
        fun event => [BootEvent.pick (.flash event)] := by
  rw [fallBackToFactory, MiniBootloader.fallBackToFactory]
  apply outline_look
  intro found
  cases found with
  | error error => rfl
  | ok part =>
      apply outline_look
      intro header
      cases header with
      | error error => exact outline_print_bind _ _
      | ok header => exact outline_print_bind _ _

theorem outline_bootChosenSlot (slot : Slot) (outcome : SelectionOutcome) :
    outline (bootChosenSlot texts slot outcome) =
      Effectful.observe (MiniBootloader.bootChosenSlot slot outcome)
        fun event => [BootEvent.pick (.flash event)] := by
  have otherwise := outline_fallBackToFactory texts slot
  rw [bootChosenSlot, MiniBootloader.bootChosenSlot]
  apply outline_look
  intro found
  cases found with
  | error error => exact (outline_print_bind _ _).trans otherwise
  | ok part =>
      apply outline_look
      intro header
      cases header with
      | error error => exact (outline_print_bind _ _).trans otherwise
      | ok header => exact outline_print_bind _ _

theorem outline_loadOtadata :
    outline (loadOtadata texts : BootM P ε (P.ota.OtaData × Bool)) =
      Effectful.ask (MiniBootloader.loadOtadata P.ota) := by
  apply Effectful.ext_run
  intro flash
  have asked : (Effectful.ask (MiniBootloader.loadOtadata P.ota) :
      Effectful Flash (BootEvent P) ε _).run flash =
        ⟨flash, [], .ok (MiniBootloader.loadOtadata P.ota flash)⟩ := rfl
  rw [loadOtadata, run_outline_ask_bind, asked, MiniBootloader.loadOtadata]
  cases P.ota.loadFromFlash otadataPartitionOffset flash with
  | ok s => rfl
  | error e =>
      rw [stateOrFresh, outline_print_bind]
      rfl

theorem outline_planAction (decodedOk : Bool)
    (action : BootAction P.ota.OtaData) :
    outline (planAction texts decodedOk action : BootM P ε _) =
      pure (MiniBootloader.planAction decodedOk action) := by
  cases action with
  | stable slot => rfl
  | pending slot attempt newState => exact outline_print_bind _ _
  | rollback fromSlot toSlot newState => exact outline_print_bind _ _

/-- A step of the outline as a computation. -/
def outlined (step : Flash → FlashRun ω ε α) (event : ω → BootEvent P) :
    Effectful Flash (BootEvent P) ε α :=
  ⟨fun flash =>
    ⟨(step flash).flash, (step flash).events.map event,
      (step flash).result⟩⟩

theorem run_outlined (step : Flash → FlashRun ω ε α) (event : ω → BootEvent P)
    (flash : Flash) :
    (outlined step event).run flash =
      ⟨(step flash).flash, (step flash).events.map event,
        (step flash).result⟩ := rfl

theorem outline_persistState (persist : Option P.ota.OtaData) :
    outline (persistState texts persist : BootM P ε Unit) =
      outlined (fun flash =>
        { flash := (MiniBootloader.persistState P.ota persist flash).1
          events := (MiniBootloader.persistState P.ota persist flash).2
          result := .ok () }) .pick := by
  cases persist with
  | none => rfl
  | some newState =>
      have logged (stored : Except P.ota.Error Unit) :
          outline (logStore texts stored : BootM P ε Unit) = pure () := by
        cases stored with
        | ok done => rfl
        | error e => exact outline_print _
      rw [persistState, outline_bind]
      apply Effectful.ext_run
      intro flash
      simp only [outline_bind, outline_bootEvent, logged]
      rfl

/-- What `pick` does once it knows the slot and the state to store. -/
def storeAndBoot (step : Slot × SelectionOutcome × Option P.ota.OtaData) :
    Effectful Flash (BootEvent P) SlotSelectError
      (PartitionEntry × SelectionOutcome) := do
  outlined (fun flash =>
    { flash := (MiniBootloader.persistState P.ota step.2.2 flash).1
      events := (MiniBootloader.persistState P.ota step.2.2 flash).2
      result := .ok () }) .pick
  Effectful.observe (MiniBootloader.bootChosenSlot step.1 step.2.1)
    fun event => [BootEvent.pick (.flash event)]

theorem run_storeAndBoot (flash : Flash) :
    (storeAndBoot (pickPlan P.ota flash)).run flash =
      (outlined (MiniBootloader.pick P.ota)
        (BootEvent.pick (P := P))).run flash := by
  rw [run_outlined, pick_events, pick_result, List.map_append, List.map_map,
    storeAndBoot, Effectful.run_bind_of_ok rfl,
    Effectful.run_observe_singleton]
  rfl

theorem outline_pick :
    outline (pick texts) =
      outlined (MiniBootloader.pick P.ota)
        (BootEvent.pick (P := P)) := by
  have chosen (step : Slot × SelectionOutcome × Option P.ota.OtaData) :
      outline (persistState texts step.2.2 >>= fun _ =>
        bootChosenSlot texts step.1 step.2.1) = storeAndBoot step := by
    rw [outline_bind, outline_persistState]
    exact Effectful.bind_congr fun _ => outline_bootChosenSlot texts _ _
  have planned (loaded : P.ota.OtaData × Bool) :
      outline (planAction texts loaded.2
          (P.ota.selectSlot loaded.1 P.ota.maxAttempts) >>= fun step =>
        persistState texts step.2.2 >>= fun _ =>
          bootChosenSlot texts step.1 step.2.1) =
        storeAndBoot (MiniBootloader.planAction loaded.2
          (P.ota.selectSlot loaded.1 P.ota.maxAttempts)) := by
    rw [outline_bind, outline_planAction, Effectful.pure_bind]
    exact chosen _
  have parts : outline (pick texts) =
      Effectful.ask (MiniBootloader.loadOtadata P.ota) >>= fun loaded =>
        storeAndBoot (MiniBootloader.planAction loaded.2
          (P.ota.selectSlot loaded.1 P.ota.maxAttempts)) := by
    rw [← outline_loadOtadata texts, ← Effectful.bind_congr planned,
      ← outline_bind]
    rfl
  apply Effectful.ext_run
  intro flash
  rw [parts, ← run_storeAndBoot, Effectful.run_bind_of_ok rfl]
  rfl

/-! ## The reports -/

theorem outline_printRecent (history : P.history.History) :
    outline (printRecent texts history : BootM P ε Unit) = pure () := by
  rw [printRecent]
  split
  · rfl
  · exact (outline_print_bind _ _).trans (outline_print _)

theorem outline_printHistory (history : P.history.History)
    (stored : Except P.history.Error Unit) :
    outline (printHistory texts history stored : BootM P ε Unit) =
      pure () := by
  cases stored with
  | ok done =>
      exact (outline_print_bind _ _).trans (outline_printRecent texts history)
  | error e =>
      rw [printHistory]
      split <;> exact outline_print _

theorem outline_printBootstat (next : P.bootstat.Record)
    (stored : Except P.bootstat.Error Unit) :
    outline (printBootstat texts next stored : BootM P ε Unit) =
      pure () := by
  cases stored with
  | ok done =>
      rw [printBootstat, outline_print_bind]
      split
      · exact outline_print _
      · rfl
  | error e =>
      rw [printBootstat]
      split <;> exact outline_print _

/-- A reporter stores a record, then prints. -/
theorem run_stored (record : Flash → Flash × α)
    (event : α → ReportEvent P.bootstat.Record)
    {line : α → BootM P ε Unit}
    (silent : ∀ stored, outline (line stored) = pure ()) (flash : Flash) :
    (outline (Effectful.update record >>= fun stored =>
        bootEvent (.report (event stored)) >>= fun _ => line stored)).run
          flash =
      ⟨(record flash).1, [.report (event (record flash).2)], .ok ()⟩ := by
  simp only [outline_bind, outline_bootEvent, silent]
  rfl

/-- A report of one step. -/
def reportOf (step : Flash → Flash × ReportEvent P.bootstat.Record) :
    Effectful Flash (BootEvent P) ε Unit :=
  ⟨fun flash => ⟨(step flash).1, [.report (step flash).2], .ok ()⟩⟩

theorem outline_recordHistory (offset : UInt32)
    (reason : BootHistory.Reason) :
    outline (recordHistory texts offset reason : BootM P ε Unit) =
      reportOf (BootHistory.recordAndPrint P.history offset reason) := by
  apply Effectful.ext_run
  intro flash
  rw [recordHistory, run_outline_ask_bind]
  exact run_stored _ (fun stored => .bootHistory offset _ stored.isOk)
    (outline_printHistory texts _) flash

theorem outline_recordBootstat (offset : UInt32) (cause : Cause)
    (crashdumpWasPresent : Bool) :
    outline (recordBootstat texts offset cause crashdumpWasPresent :
        BootM P ε Unit) =
      reportOf (Bootstat.recordAndPrint P.bootstat P.rawOf offset cause
        crashdumpWasPresent) := by
  apply Effectful.ext_run
  intro flash
  rw [recordBootstat, run_outline_ask_bind]
  exact run_stored _ (fun stored => .bootstat offset _ _ _ stored.isOk)
    (outline_printBootstat texts _) flash

theorem outline_reports (resetCause : Cause) :
    outline (reports texts resetCause : BootM P ε Unit) =
      outlined (fun flash =>
        { flash := (recordBoot P resetCause flash).1
          events := (recordBoot P resetCause flash).2
          result := .ok () }) .report := by
  apply Effectful.ext_run
  intro flash
  rw [reports, run_outline_ask_bind, run_outline_ask_bind,
    outline_print_bind, outline_bind, outline_recordHistory,
    outline_recordBootstat]
  rfl

theorem outline_psram :
    outline (psram texts : BootM P ε Unit) = pure () := by
  rw [psram, outline_act_bind rfl]
  split <;> exact outline_print _

theorem outline_bringUp (resetCause : Cause) :
    outline (bringUp texts resetCause : BootM P ε Unit) = pure () := by
  rw [bringUp, outline_print_bind, outline_act_bind rfl,
    outline_act_bind rfl, outline_print_bind]
  exact outline_print _

theorem outline_pickSlot :
    outline (pickSlot texts) =
      (outlined (MiniBootloader.pick P.ota)
        (BootEvent.pick (P := P))).mapError Halt.pick := by
  have rethrown (error : SlotSelectError) :
      outline (halt (.pick error) :
        BootM P Halt (PartitionEntry × SelectionOutcome)) =
          Effectful.throw (Halt.pick error) := outline_halt _
  rw [pickSlot, outline_bind, outline_attempt, outline_pick,
    Effectful.attempt_bind Halt.pick rethrown]
  exact Effectful.bind_pure _

/-- The slot picker of a boot, with its error handed to the heartbeat loop. -/
def outlinedPick (P : Platform) : Effectful Flash (BootEvent P) Halt
    (PartitionEntry × SelectionOutcome) :=
  (outlined (MiniBootloader.pick P.ota) BootEvent.pick).mapError Halt.pick

theorem run_outlinedPick (resetCause : Cause) (flash : Flash) :
    (outlinedPick P).run (flashAtPick P resetCause flash) =
      ⟨(bootPick P resetCause flash).flash,
        (bootPick P resetCause flash).events.map .pick,
        (bootPick P resetCause flash).result.mapError Halt.pick⟩ := rfl

/-- The boot from the slot picker on. -/
def outlinedBoot (P : Platform) : Effectful Flash (BootEvent P) Halt UInt32 :=
  outlinedPick P >>= fun choice =>
    Effectful.observe (MiniBootloader.bootImage P.sha choice.1.offset)
      fun event => [BootEvent.image event]

theorem outline_main_parts (resetCause : Cause) :
    outline (main texts resetCause) =
      outlined (fun flash =>
        { flash := (recordBoot P resetCause flash).1
          events := (recordBoot P resetCause flash).2
          result := .ok () }) .report >>= fun _ => outlinedBoot P := by
  rw [main, outline_bind, outline_bringUp, Effectful.pure_bind,
    outline_bind, outline_reports]
  apply Effectful.bind_congr
  intro _
  rw [outline_bind, outline_psram, Effectful.pure_bind, outline_bind,
    outline_pickSlot]
  exact Effectful.bind_congr fun choice => outline_bootImage _

theorem outline_main_eq (resetCause : Cause) :
    outline (main texts resetCause) =
      outlined (MiniBootloader.main P resetCause) id := by
  apply Effectful.ext_run
  intro flash
  have reported : (outline (main texts resetCause)).run flash =
      Ended.after ((recordBoot P resetCause flash).2.map .report)
        ((outlinedBoot P).run (flashAtPick P resetCause flash)) := by
    rw [outline_main_parts, Effectful.run_bind_of_ok rfl]
    rfl
  have picking := run_outlinedPick (P := P) resetCause flash
  rw [reported, run_outlined]
  cases picked : (bootPick P resetCause flash).result with
  | error error =>
      rw [picked] at picking
      have failed : ((outlinedPick P).run
          (flashAtPick P resetCause flash)).result =
            .error (.pick error) := by
        rw [picking]
        rfl
      rw [main_of_pick_error P picked, outlinedBoot,
        Effectful.run_bind_of_error failed, picking, List.map_id]
      rfl
  | ok choice =>
      obtain ⟨chosen, outcome⟩ := choice
      rw [picked] at picking
      have success : ((outlinedPick P).run
          (flashAtPick P resetCause flash)).result =
            .ok (chosen, outcome) := by
        rw [picking]
        rfl
      rw [main_of_pick_ok P picked, outlinedBoot,
        Effectful.run_bind_of_ok success, picking,
        Effectful.run_observe_singleton, List.map_id]
      simp only [Ended.after, List.append_assoc]

/-- The full boot leaves the flash its outline leaves, ends the same way, and
its stores, reads and copies are those of the outline in the same order:
whatever it prints and sets up in between changes none of them. -/
theorem main_refines_outline (resetCause : Cause) (flash : Flash) :
    let full := (main texts resetCause).run flash
    let outlined := MiniBootloader.main P resetCause flash
    full.state = outlined.flash ∧
      full.events.filterMap BootStep.seen = outlined.events ∧
      full.result = outlined.result := by
  intro full outlined
  have same := congrArg (fun body => body.run flash)
    (outline_main_eq texts resetCause)
  simp only [outline, Effectful.run_erase, run_outlined, List.map_id] at same
  obtain ⟨flashes, events, results⟩ := Ended.mk.inj same
  exact ⟨flashes, events, results⟩

end Outline

end Sequence

end MiniBootloader
