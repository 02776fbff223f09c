import MiniBootloader.HandOff
import MiniBootloader.UptimeCarry

/-!
# What the host sees of a boot

The text of a boot is sent as UTF-8 over the wire while the boot goes on.  A
boot that jumps waits for all of it first.  One that does not jump prints
ticks forever, and what the wire carries tells why.
-/

namespace MiniBootloader

open Numerals

/-! ## The text of a boot -/

/-- The bytes of a text, as `write_str` gets them. -/
def encodeText (text : Text) : List UInt8 :=
  text.flatMap String.utf8EncodeChar

theorem encodeText_append (first second : Text) :
    encodeText (first ++ second) = encodeText first ++ encodeText second :=
  List.flatMap_append

theorem encodeText_injective {text text' : Text}
    (same : encodeText text = encodeText text') : text = text' := by
  have bytes : text.utf8Encode = text'.utf8Encode :=
    congrArg List.toByteArray same
  have decoded := congrArg ByteArray.utf8Decode? bytes
  rw [List.utf8Decode?_utf8Encode, List.utf8Decode?_utf8Encode,
    Option.some.injEq] at decoded
  exact congrArg Array.toList decoded

section Steps

variable {P : Platform}

def BootStep.text : BootStep P → Text
  | .print text => text
  | _ => []

def printed (steps : List (BootStep P)) : Text :=
  steps.flatMap BootStep.text

/-- The calls of the console a step makes. -/
def BootStep.calls : BootStep P → List Uart.Call
  | .print text => [.print (encodeText text)]
  | .drainUart => [.drainUart]
  | _ => []

def consoleCalls (steps : List (BootStep P)) : List Uart.Call :=
  steps.flatMap BootStep.calls

theorem printed_append (first second : List (BootStep P)) :
    printed (first ++ second) = printed first ++ printed second :=
  List.flatMap_append

theorem consoleCalls_append (first second : List (BootStep P)) :
    consoleCalls (first ++ second) =
      consoleCalls first ++ consoleCalls second :=
  List.flatMap_append

theorem textOf_consoleCalls (steps : List (BootStep P)) :
    Uart.textOf (consoleCalls steps) = encodeText (printed steps) := by
  induction steps with
  | nil => rfl
  | cons step steps ih =>
      have front : Uart.textOf step.calls = encodeText step.text := by
        cases step with
        | print text => exact List.append_nil _
        | _ => rfl
      rw [consoleCalls, List.flatMap_cons, Uart.textOf_append, front, printed,
        List.flatMap_cons, encodeText_append]
      exact congrArg _ ih

/-- Quiet steps print whole lines. -/
theorem terminated_printed {steps : List (BootStep P)}
    (quiet : Sequence.QuietSteps steps) : Terminated (printed steps) := by
  induction steps with
  | nil => exact terminated_nil
  | cons step steps ih =>
      obtain ⟨first, others⟩ := List.forall_mem_cons.mp quiet
      have whole : Terminated step.text := by
        cases step with
        | print text => exact first
        | _ => exact terminated_nil
      rw [printed, List.flatMap_cons]
      exact whole.append (ih others)

end Steps

/-! ## The lines of a report -/

theorem newline_not_mem_variant {name : String} {field : Text}
    (clean : '\n' ∉ name.toList) (clean' : '\n' ∉ field) :
    '\n' ∉ variant name field := by
  have open' : '\n' ∉ "(".toList := by decide
  have close : '\n' ∉ ")".toList := by decide
  simp only [variant, List.mem_append, not_or]
  exact ⟨⟨⟨clean, open'⟩, clean'⟩, close⟩

theorem newline_not_mem_integer (i : Int) : '\n' ∉ integer i := by
  have number := CrashdumpReport.newline_not_mem_decimal i.natAbs
  rw [integer]
  split
  · rw [List.mem_cons, not_or]
    exact ⟨by decide, number⟩
  · exact number

theorem FlashError.newline_not_mem (error : FlashError) :
    '\n' ∉ error.text := by
  cases error with
  | unaligned => decide
  | rom status =>
      exact newline_not_mem_variant (by decide) (newline_not_mem_integer _)

theorem AppLoadError.newline_not_mem (error : AppLoadError) :
    '\n' ∉ error.text := by
  have number (n : Nat) := CrashdumpReport.newline_not_mem_decimal n
  cases error with
  | flash error =>
      exact newline_not_mem_variant (by decide) error.newline_not_mem
  | badMagic magic => exact newline_not_mem_variant (by decide) (number _)
  | segmentTooLarge dataLen =>
      exact newline_not_mem_variant (by decide) (number _)
  | unalignedSegment dataLen =>
      exact newline_not_mem_variant (by decide) (number _)

theorem SlotSelectError.newline_not_mem (error : SlotSelectError) :
    '\n' ∉ error.text := by
  cases error with
  | noBootableApp => decide
  | partition error =>
      apply newline_not_mem_variant (by decide)
      cases error with
      | flash error =>
          exact newline_not_mem_variant (by decide) error.newline_not_mem
      | noFactoryApp => decide

theorem newline_not_mem_hexBytes (bytes : Digest) :
    '\n' ∉ hexBytes bytes := by
  intro member
  obtain ⟨b, _, inByte⟩ := List.mem_flatMap.mp member
  rcases List.mem_cons.mp inByte with blank | digit
  · exact absurd blank (by decide)
  · have numeral : IsNumeral '\n' := by
      apply isNumeral_padLeft _ digit
      intro d inDigits
      rw [lowerHex, ← List.map_id (Nat.toDigits 16 b.toNat)] at inDigits
      exact isNumeral_of_mem_map_toDigits (by decide) (by decide)
        (by decide) inDigits
    exact absurd numeral (by decide)

/-- `sha256: ERR … — refusing to boot`, without the line end. -/
def refusal (text : Text) : Text :=
  "sha256: ERR ".toList ++ text ++ " — refusing to boot".toList

def VerifyError.lines : VerifyError → List Text
  | .mismatch expected actual =>
      ["sha256: MISMATCH — refusing to boot".toList,
        "  expected:".toList ++ hexBytes expected,
        "  actual:  ".toList ++ hexBytes actual]
  | .flash error => [refusal (variant "Flash" error.text)]
  | .noHash => [refusal "NoHash".toList]
  | .totalSize error => [refusal (variant "TotalSize" error.text)]

def Halt.lines : Halt → List Text
  | .pick error => ["slot_select::pick ERR ".toList ++ error.text]
  | .header error => ["app::read_header ERR ".toList ++ error.text]
  | .verify error => error.lines
  | .load error => ["app::load_segments ERR ".toList ++ error.text]

theorem Halt.report_eq (reason : Halt) :
    reason.report = joined reason.lines := by
  have one (text : Text) : newline text = joined [text] := by
    rw [joined_cons]
    rfl
  cases reason with
  | pick error => exact one _
  | header error => exact one _
  | load error => exact one _
  | verify error =>
      cases error with
      | mismatch expected actual =>
          simp only [Halt.report, VerifyError.report, Halt.lines,
            VerifyError.lines, one, ← joined_append]
          rfl
      | flash error => exact one _
      | noHash => exact one _
      | totalSize error => exact one _

theorem newline_not_mem_append {first second : Text} (clean : '\n' ∉ first)
    (clean' : '\n' ∉ second) : '\n' ∉ first ++ second := by
  rw [List.mem_append, not_or]
  exact ⟨clean, clean'⟩

theorem VerifyError.clean_lines (error : VerifyError) :
    Clean error.lines := by
  have refused {text : Text} (clean : '\n' ∉ text) :
      Clean [refusal text] := by
    have front : '\n' ∉ "sha256: ERR ".toList := by decide
    have back : '\n' ∉ " — refusing to boot".toList := by decide
    exact clean_singleton
      (newline_not_mem_append (newline_not_mem_append front clean) back)
  cases error with
  | mismatch expected actual =>
      have first := newline_not_mem_hexBytes expected
      have second := newline_not_mem_hexBytes actual
      intro line member
      simp only [VerifyError.lines, List.mem_cons, List.not_mem_nil,
        or_false] at member
      rcases member with rfl | rfl | rfl
      · decide
      · exact newline_not_mem_append (by decide) first
      · exact newline_not_mem_append (by decide) second
  | flash error =>
      exact refused
        (newline_not_mem_variant (by decide) error.newline_not_mem)
  | noHash => exact refused (by decide)
  | totalSize error =>
      exact refused
        (newline_not_mem_variant (by decide) error.newline_not_mem)

theorem Halt.clean_lines (reason : Halt) : Clean reason.lines := by
  have one {label text : Text} (clean : '\n' ∉ label)
      (clean' : '\n' ∉ text) : Clean [label ++ text] :=
    clean_singleton (newline_not_mem_append clean clean')
  cases reason with
  | pick error => exact one (by decide) error.newline_not_mem
  | header error => exact one (by decide) error.newline_not_mem
  | verify error => exact error.clean_lines
  | load error => exact one (by decide) error.newline_not_mem

/-- The character the last line of a report starts with. -/
def Halt.mark : Halt → Char
  | .pick _ => 's'
  | .header _ => 'a'
  | .verify (.mismatch _ _) => ' '
  | .verify _ => 's'
  | .load _ => 'a'

theorem Halt.getLast?_lines (reason : Halt) :
    ∃ rest, reason.lines.getLast? = some (reason.mark :: rest) := by
  cases reason with
  | verify error => cases error <;> exact ⟨_, rfl⟩
  | _ => exact ⟨_, rfl⟩

theorem Halt.length_lines (reason : Halt) :
    reason.lines.length = if reason.mark = ' ' then 3 else 1 := by
  cases reason with
  | verify error => cases error <;> rfl
  | _ => rfl

/-- Reports at the end of two equal texts are equal. -/
theorem Halt.lines_inj {reason reason' : Halt} {front front' : List Text}
    (same : front ++ reason.lines = front' ++ reason'.lines) :
    reason.lines = reason'.lines := by
  obtain ⟨rest, last⟩ := reason.getLast?_lines
  obtain ⟨rest', last'⟩ := reason'.getLast?_lines
  have ends := congrArg List.getLast? same
  rw [List.getLast?_append, List.getLast?_append, last, last'] at ends
  simp only [Option.some_or, Option.some.injEq] at ends
  have marks := (List.cons.inj ends).1
  have lengths : reason.lines.length = reason'.lines.length := by
    rw [reason.length_lines, reason'.length_lines, marks]
  exact (List.append_inj' same lengths).2

/-! ## Boots that end in the heartbeat loop -/

def tickLines (ticks : Nat) (tick : UInt32) : List Text :=
  match ticks with
  | 0 => []
  | remaining + 1 =>
      ("bl-tick ".toList ++ decimal tick.toNat) ::
        tickLines remaining (tick + 1)

theorem heartbeat_eq (ticks : Nat) (tick : UInt32) :
    (heartbeat ticks tick).flatten = joined (tickLines ticks tick) := by
  induction ticks generalizing tick with
  | zero => rfl
  | succ remaining ih =>
      rw [heartbeat, tickLines, List.flatten_cons, ih, joined_cons, tickLine,
        newline, List.append_assoc, List.singleton_append]

theorem clean_tickLines (ticks : Nat) (tick : UInt32) :
    Clean (tickLines ticks tick) := by
  induction ticks generalizing tick with
  | zero => exact clean_nil
  | succ remaining ih =>
      have label : '\n' ∉ "bl-tick ".toList := by decide
      exact (ih _).cons (newline_not_mem_append label
        (CrashdumpReport.newline_not_mem_decimal _))

/-- No report ends with a line that could be a tick. -/
def TickLine (line : Text) : Prop :=
  line.head? = some 'b'

theorem tickLine_of_mem {ticks : Nat} {tick : UInt32} {line : Text}
    (member : line ∈ tickLines ticks tick) : TickLine line := by
  induction ticks generalizing tick with
  | zero => cases member
  | succ remaining ih =>
      rcases List.mem_cons.mp member with rfl | later
      · rfl
      · exact ih later

theorem Halt.mark_ne (reason : Halt) : reason.mark ≠ 'b' := by
  cases reason with
  | verify error => cases error <;> simp [Halt.mark]
  | _ => simp [Halt.mark]

theorem not_tickLine_report {reason : Halt} {front : List Text}
    {line : Text} (last : (front ++ reason.lines).getLast? = some line) :
    ¬ TickLine line := by
  obtain ⟨rest, final⟩ := reason.getLast?_lines
  rw [List.getLast?_append, final, Option.some_or,
    Option.some.injEq] at last
  rw [TickLine, ← last, List.head?_cons, Option.some.injEq]
  exact reason.mark_ne

/-- What a boot that ended with `reason` has printed after some ticks. -/
structure TellsReason (reason : Halt) (ticks : Nat) (text : Text) :
    Prop where
  split : ∃ front, Clean front ∧
    text = joined (front ++ reason.lines ++ tickLines ticks 0)

/-- The text tells the reason, whatever was printed in front of the report
and however long the heartbeat goes on. -/
theorem TellsReason.reason_eq {reason reason' : Halt} {ticks ticks' : Nat}
    {text : Text} (tells : TellsReason reason ticks text)
    (tells' : TellsReason reason' ticks' text) : reason = reason' := by
  obtain ⟨front, clean, split⟩ := tells
  obtain ⟨front', clean', split'⟩ := tells'
  have lines := joined_injective
    ((clean.append reason.clean_lines).append (clean_tickLines ticks 0))
    ((clean'.append reason'.clean_lines).append (clean_tickLines ticks' 0))
    (split.symm.trans split')
  have reported := append_marked_inj (fun _ => tickLine_of_mem)
    (fun _ => tickLine_of_mem) (fun _ => not_tickLine_report)
    (fun _ => not_tickLine_report) lines
  apply Halt.report_injective
  rw [reason.report_eq, reason'.report_eq, Halt.lines_inj reported]

/-! ## The wire -/

section Wire

variable {P : Platform} (texts : Texts P) (resetCause : Cause)
  (flash : Flash)

def bootSteps : List (BootStep P) :=
  ((Sequence.main texts resetCause).run flash).events

/-- The calls of the hand-off are a wait. -/
theorem consoleCalls_handOff (front : List (BootStep P))
    (entryAddr : UInt32) :
    consoleCalls (front ++ Sequence.handOffSteps entryAddr) =
      consoleCalls front ++ [.drainUart] := by
  rw [consoleCalls_append]
  rfl

/-- Once the wait is over everything printed in front of it is sent and
nothing is queued. -/
theorem wire_of_drained (ring : UartRing) (moves : List Console.Move)
    (calls : List Uart.Call)
    (past : (Console.run (Console.start ring (calls ++ [.drainUart]))
      moves).todo = []) :
    let console := Console.run (Console.start ring (calls ++ [.drainUart]))
      moves
    console.fifo = [] ∧ console.wire = Uart.crlf (Uart.textOf calls) := by
  intro console
  have sent : Uart.crlf (Uart.textOf calls) <+: console.wire := by
    apply Console.sent_of_drained ring _ moves rfl
    rw [past]
    exact List.suffix_refl _
  have bounded : console.wire ++ console.fifo <+: _ :=
    Console.prefix_of_run ring (calls ++ [.drainUart]) moves
  have whole : Uart.textOf (calls ++ [.drainUart]) = Uart.textOf calls := by
    rw [Uart.textOf_append]
    exact List.append_nil _
  rw [whole] at bounded
  have lengths := bounded.length_le
  have enough := sent.length_le
  rw [List.length_append] at lengths
  have empty : console.fifo = [] :=
    List.eq_nil_of_length_eq_zero (by omega)
  exact ⟨empty, (sent.eq_of_length (by omega)).symm⟩

/-- The calls of a boot that ends in the heartbeat loop, up to a tick. -/
def haltedCalls (ticks : Nat) : List Uart.Call :=
  consoleCalls (bootSteps texts resetCause flash) ++
    (heartbeat ticks 0).map fun text => .print (encodeText text)

/-- What the host has received of a halted boot when the console is idle
after some ticks. -/
def HostReceived (ticks : Nat) (wire : List UInt8) : Prop :=
  ∃ ring moves,
    let console := Console.run
      (Console.start ring (haltedCalls texts resetCause flash ticks)) moves
    console.todo = [] ∧ console.fifo = [] ∧ console.wire = wire

/-- The host receives something when it waits long enough. -/
theorem exists_hostReceived (ticks : Nat) :
    ∃ wire, HostReceived texts resetCause flash ticks wire := by
  let calls := haltedCalls texts resetCause flash ticks
  let rounds := List.replicate (4 * (Uart.crlf (Uart.textOf calls)).length +
    calls.count .drainUart) [Console.Move.send, .cpu 0 0]
  have both : ∀ round ∈ rounds, Console.Round round := by
    intro round member
    rw [List.eq_of_mem_replicate member]
    exact ⟨⟨0, 0, by simp⟩, by simp⟩
  obtain ⟨finished, empty, _⟩ := Console.settled_of_rounds
    Console.unboundedRing calls both (by rw [List.length_replicate])
  exact ⟨_, _, _, finished, empty, rfl⟩

variable {texts resetCause flash}

theorem textOf_haltedCalls (ticks : Nat) :
    Uart.textOf (haltedCalls texts resetCause flash ticks) =
      encodeText (printed (bootSteps texts resetCause flash) ++
        (heartbeat ticks 0).flatten) := by
  have lines (texts : List Text) :
      Uart.textOf (texts.map fun text => .print (encodeText text)) =
        encodeText texts.flatten := by
    induction texts with
    | nil => rfl
    | cons text texts ih =>
        rw [List.map_cons, Uart.textOf_cons, ih, List.flatten_cons,
          encodeText_append]
        rfl
  rw [haltedCalls, Uart.textOf_append, textOf_consoleCalls, lines,
    encodeText_append]

theorem tellsReason_of_halted {reason : Halt} (ticks : Nat)
    (halted : ((Sequence.main texts resetCause).run flash).result =
      .error reason) :
    TellsReason reason ticks (printed (bootSteps texts resetCause flash) ++
      (heartbeat ticks 0).flatten) := by
  have ended := Sequence.run_main texts resetCause flash
  rw [ended] at halted
  obtain ⟨front, quiet, steps⟩ := (Sequence.ends_afterSetUp texts resetCause
    flash).2 reason halted
  have setUp : Terminated (printed (Sequence.setUpSteps (P := P))) :=
    (terminated_concat _).append terminated_nil
  obtain ⟨lines, clean, text⟩ :=
    (setUp.append (terminated_printed quiet)).exists_lines
  have last : printed [BootStep.print (P := P) reason.report] =
      joined reason.lines := by
    rw [← reason.report_eq]
    exact List.append_nil _
  refine ⟨lines, clean, ?_⟩
  rw [bootSteps, ended, Ended.after, steps, printed_append, printed_append,
    last, heartbeat_eq, joined_append, joined_append, ← text]
  simp only [List.append_assoc]

end Wire

/-- The outline of a boot ends as the boot does. -/
theorem result_main {P : Platform} (texts : Texts P) (resetCause : Cause)
    (flash : Flash) :
    ((Sequence.main texts resetCause).run flash).result =
      (main P resetCause flash).result := by
  rw [← Sequence.result_outline, Sequence.outline_main_eq]
  rfl

/-! ## Samples -/

def StandIn.texts : Texts uptimeStandIn :=
  { cause := fun _ => "PowerOn".toList
    crashdump :=
      { Error := Unit
        showError := fun _ => []
        tag := fun _ => 0
        loadFromFlash := fun _ _ => .error () }
    history :=
      { reasonTag := fun _ => 0
        len := fun _ => 0
        iterRecent := fun _ => []
        romStatus := fun _ => none
        errorText := fun _ => [] }
    bootstat :=
      { bootCount := fun _ => 0
        lastReason := fun _ => []
        lastReasonRaw := fun _ => 0
        crashCount := fun _ => 0
        uptimeHours := fun _ => 0
        lastPanicPc := fun _ => 0
        romStatus := fun _ => none
        errorText := fun _ => [] }
    otaError := fun _ => []
    slot := fun slot => slot.label.toList
    debugStr := String.toList
    psramInit := .error [] }

/-- A flash that cannot be read. -/
def deadFlash : Flash :=
  { Flash.erased with status := fun _ _ => 1 }

/-- An image with a segment of three bytes. -/
def oddFlash : Flash :=
  (Flash.erased.program 0x20000
    [0xE9, 1, 2, 0x1F, 0x00, 0x00, 0xF2, 0x4F, 0xEE, 0, 0, 0, 18, 0, 0, 0,
      0, 0, 0, 0, 0, 0, 0, 0, 0x00, 0x00, 0xF5, 0x4F, 3, 0, 0, 0]).withTable
    slotTable

theorem main_deadFlash :
    ((Sequence.main StandIn.texts .powerOn).run deadFlash).result =
      .error (.pick .noBootableApp) := by
  rw [result_main]
  decide +kernel

theorem main_oddFlash :
    ((Sequence.main StandIn.texts .powerOn).run oddFlash).result =
      .error (.load (.unalignedSegment 3)) := by
  rw [result_main]
  decide +kernel

/-- A boot that jumps has returned from its calls when the watchdog is armed.
By then everything it printed is on the wire and can be read back, however
the UART and the CPU took turns. -/
theorem text_sent_before_handOff {P : Platform} (texts : Texts P)
    (resetCause : Cause) (flash : Flash) {entryAddr : UInt32}
    (jumped : ((Sequence.main texts resetCause).run flash).result =
      .ok entryAddr) :
    ∃ front, bootSteps texts resetCause flash =
        front ++ Sequence.handOffSteps entryAddr ∧
      ∀ ring moves,
        let console := Console.run (Console.start ring
          (consoleCalls (bootSteps texts resetCause flash))) moves
        console.todo = [] →
          console.fifo = [] ∧
            Uart.uncrlf console.wire = encodeText (printed front) := by
  have ended := Sequence.run_main texts resetCause flash
  rw [ended] at jumped
  obtain ⟨front, _, steps⟩ := (Sequence.ends_afterSetUp texts resetCause
    flash).1 entryAddr jumped
  have whole : bootSteps texts resetCause flash =
      (Sequence.setUpSteps ++ front) ++ Sequence.handOffSteps entryAddr := by
    rw [bootSteps, ended, Ended.after, steps, List.append_assoc]
  refine ⟨_, whole, ?_⟩
  intro ring moves console past
  have calls := consoleCalls_handOff (Sequence.setUpSteps ++ front) entryAddr
  rw [← whole] at calls
  have sent := wire_of_drained ring moves
    (consoleCalls (Sequence.setUpSteps ++ front))
  rw [← calls] at sent
  obtain ⟨empty, wire⟩ := sent past
  refine ⟨empty, ?_⟩
  rw [wire, Uart.uncrlf_crlf, textOf_consoleCalls]

theorem text_sent_before_handOff_sample :
    ∃ front, bootSteps StandIn.texts .powerOn (oneSlotFlash .a) =
        front ++ Sequence.handOffSteps 0x4FF50000 ∧
      ∀ ring moves,
        let console := Console.run (Console.start ring (consoleCalls
          (bootSteps StandIn.texts .powerOn (oneSlotFlash .a)))) moves
        console.todo = [] →
          console.fifo = [] ∧
            Uart.uncrlf console.wire = encodeText (printed front) := by
  apply text_sent_before_handOff
  rw [result_main]
  exact (boots_oneSlotFlash .powerOn).1

/-- The wire of a boot that does not jump tells the host why: no two reasons
leave the same bytes, whatever else was printed, on whatever device, and
however many ticks the host waits for. -/
theorem wire_tells_reason {P P' : Platform} {texts : Texts P}
    {texts' : Texts P'} {cause cause' : Cause} {flash flash' : Flash}
    {reason reason' : Halt} {ticks ticks' : Nat} {wire : List UInt8}
    (halted : ((Sequence.main texts cause).run flash).result =
      .error reason)
    (halted' : ((Sequence.main texts' cause').run flash').result =
      .error reason')
    (received : HostReceived texts cause flash ticks wire)
    (received' : HostReceived texts' cause' flash' ticks' wire) :
    reason = reason' := by
  obtain ⟨ring, moves, finished, empty, sent⟩ := received
  obtain ⟨ring', moves', finished', empty', sent'⟩ := received'
  rw [Console.wire_of_finished ring _ moves finished empty,
    textOf_haltedCalls] at sent
  rw [Console.wire_of_finished ring' _ moves' finished' empty',
    textOf_haltedCalls, ← sent] at sent'
  have bytes := congrArg Uart.uncrlf sent'
  rw [Uart.uncrlf_crlf, Uart.uncrlf_crlf] at bytes
  have text := encodeText_injective bytes
  have tells := tellsReason_of_halted ticks halted
  rw [← text] at tells
  exact tells.reason_eq (tellsReason_of_halted ticks' halted')

/-- What a host receives of a device whose flash cannot be read it never
receives of one with an odd segment. -/
theorem wire_tells_reason_sample :
    ∃ wire, HostReceived StandIn.texts .powerOn deadFlash 2 wire ∧
      ∀ ticks, ¬ HostReceived StandIn.texts .powerOn oddFlash ticks wire := by
  obtain ⟨wire, received⟩ :=
    exists_hostReceived StandIn.texts .powerOn deadFlash 2
  refine ⟨wire, received, ?_⟩
  intro ticks received'
  have same := wire_tells_reason main_deadFlash main_oddFlash received
    received'
  cases same

end MiniBootloader
