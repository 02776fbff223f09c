import MiniBootloader.BootRefinement

/-!
# How a boot ends

A boot either hands the chip over to the app, with the caches, the watchdog
and the console left as the app needs them, or it tells why it did not and
touches none of these.
-/

namespace MiniBootloader

open Numerals

/-- A step in front of the end of a boot; what it prints are whole lines. -/
def BootStep.Quiet {P : Platform} : BootStep P → Prop
  | .print text => Terminated text
  | .psramInit | .boot _ => True
  | _ => False

namespace Sequence

section Ends

variable {P : Platform}

abbrev QuietSteps (steps : List (BootStep P)) : Prop :=
  ∀ step ∈ steps, step.Quiet

/-- The steps from the drain of the console to the jump. -/
def handOffSteps (entryAddr : UInt32) : List (BootStep P) :=
  [.drainUart, .enableTimg1Reset wdtTimeoutMs,
    .cacheWritebackAll (cacheMapL1Dcache ||| cacheMapL2),
    .cacheInvalidateAll
      (cacheMapL1Icache0 ||| cacheMapL1Icache1 ||| cacheMapL2),
    .fenceI, .jump entryAddr]

def HandsOff (entryAddr : UInt32) (steps : List (BootStep P)) : Prop :=
  ∃ front, QuietSteps front ∧ steps = front ++ handOffSteps entryAddr

/-- The last thing printed tells why the boot ended. -/
def Reported (reason : Halt) (steps : List (BootStep P)) : Prop :=
  ∃ front, QuietSteps front ∧ steps = front ++ [.print reason.report]

/-- A part of the boot that reports its errors. -/
abbrev Steady {α : Type} (body : BootM P Halt α) : Prop :=
  body.Leaves (fun _ steps => QuietSteps steps) Reported

variable {ε α β : Type}

theorem quiet_append {front rest : List (BootStep P)}
    (quiet : QuietSteps front) (quiet' : QuietSteps rest) :
    QuietSteps (front ++ rest) := by
  intro step member
  rcases List.mem_append.mp member with early | late
  · exact quiet step early
  · exact quiet' step late

theorem Reported.after {front steps : List (BootStep P)} {reason : Halt}
    (quiet : QuietSteps front) (reported : Reported reason steps) :
    Reported reason (front ++ steps) := by
  obtain ⟨middle, still, rfl⟩ := reported
  exact ⟨front ++ middle, quiet_append quiet still,
    (List.append_assoc ..).symm⟩

theorem HandsOff.after {front steps : List (BootStep P)}
    {entryAddr : UInt32} (quiet : QuietSteps front)
    (handsOff : HandsOff entryAddr steps) :
    HandsOff entryAddr (front ++ steps) := by
  obtain ⟨middle, still, rfl⟩ := handsOff
  exact ⟨front ++ middle, quiet_append quiet still,
    (List.append_assoc ..).symm⟩

/-! ## Parts that cannot fail -/

abbrev Silent (body : BootM P ε α) : Prop :=
  body.Emits BootStep.Quiet

theorem silent_print {text : Text} (ended : Terminated text) :
    Silent (print text : BootM P ε Unit) :=
  Effectful.emits_emit ended

theorem silent_line (text : Text) :
    Silent (print (newline text) : BootM P ε Unit) :=
  silent_print (terminated_concat text)

theorem silent_bootEvent (event : BootEvent P) :
    Silent (bootEvent event : BootM P ε Unit) :=
  Effectful.emits_emit trivial

theorem silent_pure (value : α) : Silent (pure value : BootM P ε α) :=
  Effectful.emits_pure value

theorem silent_ask (view : Flash → α) :
    Silent (Effectful.ask view : BootM P ε α) :=
  Effectful.emits_ask view

theorem silent_update (change : Flash → Flash × α) :
    Silent (Effectful.update change : BootM P ε α) :=
  Effectful.emits_update change

theorem silent_showImage (body : FlashM ε α) :
    Silent (P := P) (Effectful.observe body showImage) := by
  apply Effectful.emits_observe
  intro event step member
  cases event with
  | onSegment i la dl =>
      rcases List.mem_cons.mp member with rfl | line
      · trivial
      · rw [List.mem_singleton.mp line]
        exact terminated_concat _
  | romRead start dest len =>
      rw [List.mem_singleton.mp member]
      trivial
  | memWrite address data =>
      rw [List.mem_singleton.mp member]
      trivial

theorem silent_showPick (body : FlashM ε α) :
    Silent (P := P) (Effectful.observe body showPick) := by
  apply Effectful.emits_observe
  intro event step member
  rw [List.mem_singleton.mp member]
  trivial

section Pick

variable (texts : Texts P)

theorem silent_fallBackToFactory (skipped : Slot) :
    Silent (fallBackToFactory texts skipped) := by
  apply (silent_showPick _).attempt.bind
  intro found
  cases found with
  | error error => exact Effectful.emits_throw _
  | ok part =>
      apply (silent_showPick _).attempt.bind
      intro header
      cases header with
      | error error =>
          exact (silent_line _).bind fun _ => Effectful.emits_throw _
      | ok header => exact (silent_line _).bind fun _ => silent_pure _

theorem silent_bootChosenSlot (slot : Slot) (outcome : SelectionOutcome) :
    Silent (bootChosenSlot texts slot outcome) := by
  have fallBack := silent_fallBackToFactory texts slot
  apply (silent_showPick _).attempt.bind
  intro found
  cases found with
  | error error => exact (silent_line _).bind fun _ => fallBack
  | ok part =>
      apply (silent_showPick _).attempt.bind
      intro header
      cases header with
      | error error => exact (silent_line _).bind fun _ => fallBack
      | ok header => exact (silent_line _).bind fun _ => silent_pure _

theorem silent_loadOtadata :
    Silent (loadOtadata texts : BootM P ε (P.ota.OtaData × Bool)) := by
  apply (silent_ask _).bind
  intro loaded
  cases loaded with
  | ok s => exact silent_pure _
  | error e => exact (silent_line _).bind fun _ => silent_pure _

theorem silent_planAction (decodedOk : Bool)
    (action : BootAction P.ota.OtaData) :
    Silent (planAction texts decodedOk action : BootM P ε _) := by
  cases action with
  | stable slot => exact silent_pure _
  | pending slot attempt newState =>
      exact (silent_line _).bind fun _ => silent_pure _
  | rollback fromSlot toSlot newState =>
      exact (silent_line _).bind fun _ => silent_pure _

theorem silent_persistState (persist : Option P.ota.OtaData) :
    Silent (persistState texts persist : BootM P ε Unit) := by
  cases persist with
  | none => exact silent_pure _
  | some newState =>
      apply (silent_update _).bind
      intro stored
      apply (silent_bootEvent _).bind
      intro _
      cases stored with
      | ok done => exact silent_pure _
      | error e => exact silent_line _

theorem silent_pick : Silent (pick texts) := by
  apply (silent_loadOtadata texts).bind
  intro loaded
  apply (silent_planAction texts _ _).bind
  intro step
  apply (silent_persistState texts _).bind
  intro _
  exact silent_bootChosenSlot texts _ _

end Pick

section Reports

variable (texts : Texts P)

theorem terminated_printIfPresent (crate : P4Crashdump) (isPresent : Bool)
    (partitionOffset : UInt32) (flash : Flash) :
    Terminated (CrashdumpReport.printIfPresent crate isPresent
      partitionOffset flash) := by
  rw [CrashdumpReport.printIfPresent]
  split
  · split
    · rw [CrashdumpReport.printDump, CrashdumpReport.printFooter,
        ← List.append_assoc]
      exact terminated_append_line _ _ _
    · exact terminated_append_line _ _ _
  · exact terminated_nil

theorem silent_printHistory (history : P.history.History)
    (stored : Except P.history.Error Unit) :
    Silent (printHistory texts history stored : BootM P ε Unit) := by
  cases stored with
  | ok done =>
      apply (silent_line _).bind
      intro _
      rw [printRecent]
      split
      · exact silent_pure _
      · apply (silent_line _).bind
        intro _
        exact silent_print (terminated_flatMap (fun _ =>
          terminated_concat _) _)
  | error e =>
      rw [printHistory]
      split <;> exact silent_line _

theorem silent_printBootstat (next : P.bootstat.Record)
    (stored : Except P.bootstat.Error Unit) :
    Silent (printBootstat texts next stored : BootM P ε Unit) := by
  cases stored with
  | ok done =>
      apply (silent_line _).bind
      intro _
      split
      · exact silent_line _
      · exact silent_pure _
  | error e =>
      rw [printBootstat]
      split <;> exact silent_line _

theorem silent_reports (resetCause : Cause) :
    Silent (reports texts resetCause : BootM P ε Unit) := by
  apply (silent_ask _).bind
  intro crashWasPresent
  apply Effectful.emits_ask_bind
  intro flash
  apply (silent_print (terminated_printIfPresent _ _ _ flash)).bind
  intro _
  have history : Silent (recordHistory texts
      BootHistory.bootlogPartitionOffset
        (if crashWasPresent then .crashRecovery
          else BootHistory.mapCauseToReason resetCause) :
        BootM P ε Unit) := by
    apply (silent_ask _).bind
    intro loaded
    apply (silent_update _).bind
    intro stored
    exact (silent_bootEvent _).bind fun _ => silent_printHistory texts _ _
  apply history.bind
  intro _
  apply (silent_ask _).bind
  intro prev
  apply (silent_update _).bind
  intro stored
  exact (silent_bootEvent _).bind fun _ => silent_printBootstat texts _ _

theorem silent_psram : Silent (psram texts : BootM P ε Unit) := by
  have started : Silent (Effectful.emit .psramInit : BootM P ε Unit) :=
    Effectful.emits_emit trivial
  apply started.bind
  intro _
  split <;> exact silent_line _

end Reports

/-! ## Parts that may end the boot -/

theorem Silent.steady {body : BootM P Halt α} (silent : Silent body)
    (succeeds : ∀ flash error, (body.run flash).result ≠ .error error) :
    Steady body := by
  intro flash
  constructor
  · intro value _
    exact silent flash
  · intro error failure
    exact (succeeds flash error failure).elim

theorem Steady.bind {first : BootM P Halt α} {next : α → BootM P Halt β}
    (left : Steady first) (right : ∀ value, Steady (next value)) :
    Steady (first >>= next) := by
  refine Effectful.Leaves.bind left ?_ fun _ _ reported => reported
  intro value front quiet
  refine Effectful.Leaves.weaken (right value) ?_ ?_
  · intro value' later quiet'
    exact quiet_append quiet quiet'
  · intro reason later reported
    exact reported.after quiet

theorem steady_line (text : Text) :
    Steady (P := P) (print (newline text)) :=
  (silent_line text).steady fun _ _ failure => by cases failure

theorem steady_pure (value : α) : Steady (P := P) (pure value) :=
  (silent_pure value).steady fun _ _ failure => by cases failure

theorem steady_halt (reason : Halt) :
    Steady (halt reason : BootM P Halt α) := by
  intro flash
  constructor
  · intro value success
    cases success
  · intro error failure
    cases failure
    exact ⟨[], List.forall_mem_nil _, rfl⟩

/-- Handing the result of a silent part to steady ones. -/
theorem steady_try {body : BootM P ε α} {next : Except ε α → BootM P Halt β}
    (silent : Silent body) (rest : ∀ result, Steady (next result)) :
    Steady (body.attempt >>= next) :=
  Steady.bind silent.leaves_attempt rest

theorem steady_readImage (off : UInt32) :
    Steady (readImage off : BootM P Halt ImageHeader) := by
  apply steady_try (silent_showImage _)
  intro result
  cases result with
  | error e => exact steady_halt _
  | ok h => exact (steady_line _).bind fun _ => steady_pure h

theorem steady_verifyGate (off : UInt32) (header : ImageHeader) :
    Steady (verifyGate off header : BootM P Halt Unit) := by
  rw [verifyGate]
  split
  · apply steady_try (silent_showImage _)
    intro result
    cases result with
    | error e => exact steady_halt _
    | ok d => exact steady_line _
  · exact steady_line _

theorem steady_loadImage (off : UInt32) (header : ImageHeader) :
    Steady (loadImage off header : BootM P Halt Unit) := by
  apply steady_try (silent_showImage _)
  intro result
  cases result with
  | error e => exact steady_halt _
  | ok done => exact steady_pure ()

theorem steady_pickSlot (texts : Texts P) : Steady (pickSlot texts) := by
  apply steady_try (silent_pick texts)
  intro result
  cases result with
  | error e => exact steady_halt _
  | ok pair => exact steady_pure pair

/-! ## The two ends -/

/-- A computation that ends the boot. -/
abbrev Ends (body : BootM P Halt UInt32) : Prop :=
  body.Leaves HandsOff Reported

theorem Ends.after {first : BootM P Halt α} {next : α → BootM P Halt UInt32}
    (left : Steady first) (right : ∀ value, Ends (next value)) :
    Ends (first >>= next) := by
  refine Effectful.Leaves.bind left ?_ fun _ _ reported => reported
  intro value front quiet
  refine Effectful.Leaves.weaken (right value) ?_ ?_
  · intro entryAddr later handsOff
    exact handsOff.after quiet
  · intro reason later reported
    exact reported.after quiet

theorem ends_handOff (entryAddr : UInt32) :
    Ends (handOff entryAddr : BootM P Halt UInt32) := by
  intro flash
  constructor
  · intro value success
    cases success
    refine ⟨[.print _, .print _], ?_, rfl⟩
    intro step member
    rcases List.mem_cons.mp member with rfl | last
    · exact terminated_concat _
    · rw [List.mem_singleton.mp last]
      exact terminated_concat _
  · intro reason failure
    cases failure

theorem ends_bootImage (off : UInt32) :
    Ends (bootImage off : BootM P Halt UInt32) := by
  apply Ends.after (steady_readImage off)
  intro header
  apply Ends.after (steady_verifyGate off header)
  intro _
  apply Ends.after (steady_loadImage off header)
  intro _
  exact ends_handOff header.entryAddr

/-- The steps before anything else is looked at. -/
def setUpSteps : List (BootStep P) :=
  [.print (newline "\n=== mini-bootloader alive @ 0x4FF20000 ===".toList),
    .disableAllWdts, .initPhase2Full]

/-- The boot once the watchdogs of the ROM are off and the chip is up. -/
def afterSetUp (texts : Texts P) (resetCause : Cause) :
    BootM P Halt UInt32 := do
  print (newline "mini-bootloader: init_phase2_full() done".toList)
  print (newline ("reset cause: ".toList ++ texts.cause resetCause ++
    " (raw 0x".toList ++
    padLeft '0' 2 (upperHex (P.rawOf resetCause).toNat) ++ ")".toList))
  reports texts resetCause
  psram texts
  let choice ← pickSlot texts
  bootImage choice.1.offset

theorem run_main (texts : Texts P) (resetCause : Cause) (flash : Flash) :
    (main texts resetCause).run flash =
      Ended.after setUpSteps ((afterSetUp texts resetCause).run flash) := by
  have parts : main texts resetCause =
      print (newline
        "\n=== mini-bootloader alive @ 0x4FF20000 ===".toList) >>= fun _ =>
      Effectful.emit .disableAllWdts >>= fun _ =>
      Effectful.emit .initPhase2Full >>= fun _ =>
      afterSetUp texts resetCause := by
    rw [main, bringUp]
    simp only [Effectful.bind_assoc]
    rfl
  rw [parts, print, Effectful.run_emit_bind, Effectful.run_emit_bind,
    Effectful.run_emit_bind]
  rfl

/-- Erasing steps keeps the result, so a part of which the outline is left
with no error has none. -/
theorem result_outline (body : BootM P ε α) (flash : Flash) :
    ((outline body).run flash).result = (body.run flash).result := rfl

theorem ends_afterSetUp (texts : Texts P) (resetCause : Cause) :
    Ends (afterSetUp texts resetCause) := by
  have reported : Steady (reports texts resetCause : BootM P Halt Unit) := by
    apply (silent_reports texts resetCause).steady
    intro flash error failure
    rw [← result_outline, outline_reports] at failure
    cases failure
  have started : Steady (psram texts : BootM P Halt Unit) := by
    apply (silent_psram texts).steady
    intro flash error failure
    rw [← result_outline, outline_psram] at failure
    cases failure
  apply Ends.after (steady_line _)
  intro _
  apply Ends.after (steady_line _)
  intro _
  apply Ends.after reported
  intro _
  apply Ends.after started
  intro _
  apply Ends.after (steady_pickSlot texts)
  intro choice
  exact ends_bootImage choice.1.offset

/-- Every boot prints its banner and turns the watchdogs of the ROM off before
anything else.  One that jumps ends by draining the console, arming the
watchdog of the app, writing the caches back, invalidating them and jumping,
once and in this order and with nothing in between; one that does not does
none of this and ends by printing why. -/
theorem boot_ends_in_order (texts : Texts P) (resetCause : Cause)
    (flash : Flash) :
    let run := (main texts resetCause).run flash
    (∀ entryAddr, run.result = .ok entryAddr →
      ∃ front, QuietSteps front ∧
        run.events = setUpSteps ++ front ++ handOffSteps entryAddr) ∧
    ∀ reason, run.result = .error reason →
      ∃ front, QuietSteps front ∧
        run.events = setUpSteps ++ front ++ [.print reason.report] := by
  intro run
  obtain ⟨jumped, halted⟩ := ends_afterSetUp texts resetCause flash
  have setUp : run = _ := run_main texts resetCause flash
  rw [setUp]
  constructor
  · intro entryAddr success
    obtain ⟨front, quiet, steps⟩ := jumped entryAddr success
    refine ⟨front, quiet, ?_⟩
    rw [Ended.after, steps, List.append_assoc]
  · intro reason failure
    obtain ⟨front, quiet, steps⟩ := halted reason failure
    refine ⟨front, quiet, ?_⟩
    rw [Ended.after, steps, List.append_assoc]

end Ends

end Sequence

end MiniBootloader
