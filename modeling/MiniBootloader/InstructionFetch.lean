import MiniBootloader.ConsoleLog
import MiniBootloader.InstalledImages
import MiniBootloader.Library.CacheHierarchy
import MiniBootloader.LoadMemory

/-!
# What the cores fetch after the jump

`load_segments` stores the image through the data cache, and
`jump_to_entry` has the ROM write the caches back and invalidate those the
cores fetch through.
-/

namespace MiniBootloader

open CacheHierarchy Overlay Words

/-- The cores, each with an L1 instruction cache. -/
inductive Core where
  | core0
  | core1
  deriving DecidableEq, Repr

abbrev CacheCell := Cell Core UInt8

abbrev CacheCommand := Command UInt32 UInt32 UInt8

abbrev CacheHappening := Happening UInt32 UInt32 UInt8

/-! ## The routines of the ROM -/

def inMap (map bit : UInt32) : Bool :=
  map &&& bit != 0

def cacheMapL1Icache : Core → UInt32
  | .core0 => cacheMapL1Icache0
  | .core1 => cacheMapL1Icache1

/-- `Cache_WriteBack_All` and `Cache_Invalidate_All`: what a call with a map
may do to the caches. -/
abbrev CacheRom := Routines UInt32 UInt32 Core UInt8

/-- The routines do what their names say to the caches in the map. -/
structure CacheRom.Maintains (rom : CacheRom) : Prop where
  writesBack : ∀ map before after, rom.writeback map before after →
    ∀ address, (before address).WritesBack (inMap map cacheMapL1Dcache)
      (inMap map cacheMapL2) (after address)
  invalidates : ∀ map before after, rom.invalidate map before after →
    ∀ address, (before address).Invalidates
      (fun core => inMap map (cacheMapL1Icache core)) (after address)

/-! ## The commands of a boot -/

/-- The stores of a copy, byte by byte. -/
def storesAt : UInt32 → List UInt8 → List (UInt32 × UInt8)
  | _, [] => []
  | address, byte :: data => (address, byte) :: storesAt (address + 1) data

def Event.writes : Event → List (UInt32 × UInt8)
  | .memWrite address data => storesAt address data
  | _ => []

section Steps

variable {P : Platform}

def BootStep.cacheCommands : BootStep P → List CacheCommand
  | .boot (.image event) => storesOf event.writes
  | .cacheWritebackAll map => [.writeback map]
  | .cacheInvalidateAll map => [.invalidate map]
  | .fenceI => [.fence]
  | _ => []

/-- What a boot does to the caches. -/
def cacheCommands (steps : List (BootStep P)) : List CacheCommand :=
  steps.flatMap BootStep.cacheCommands

theorem cacheCommands_append (first second : List (BootStep P)) :
    cacheCommands (first ++ second) =
      cacheCommands first ++ cacheCommands second :=
  List.flatMap_append

/-- The image events among the steps. -/
def imageEvents (steps : List (BootStep P)) : List Event :=
  imageTrace (steps.filterMap BootStep.seen)

/-- Quiet steps store the copies of the loader and nothing else. -/
theorem cacheCommands_quiet {steps : List (BootStep P)}
    (quiet : Sequence.QuietSteps steps) :
    cacheCommands steps =
      storesOf ((imageEvents steps).flatMap Event.writes) := by
  induction steps with
  | nil => rfl
  | cons step steps ih =>
      obtain ⟨first, others⟩ := List.forall_mem_cons.mp quiet
      have rest := ih others
      rw [cacheCommands, List.flatMap_cons, ← cacheCommands, rest]
      cases step with
      | boot event =>
          cases event with
          | image event =>
              exact (List.map_append ..).symm
          | report event => rfl
          | pick event => rfl
      | print text => rfl
      | psramInit => rfl
      | disableAllWdts => exact first.elim
      | initPhase2Full => exact first.elim
      | drainUart => exact first.elim
      | enableTimg1Reset timeoutMs => exact first.elim
      | cacheWritebackAll map => exact first.elim
      | cacheInvalidateAll map => exact first.elim
      | fenceI => exact first.elim
      | jump entryAddr => exact first.elim

/-- The maps of `jump_to_entry`. -/
def writebackMap : UInt32 :=
  cacheMapL1Dcache ||| cacheMapL2

def invalidateMap : UInt32 :=
  cacheMapL1Icache0 ||| cacheMapL1Icache1 ||| cacheMapL2

theorem cacheCommands_handOff (entryAddr : UInt32) :
    cacheCommands (P := P) (Sequence.handOffSteps entryAddr) =
      [.writeback writebackMap, .invalidate invalidateMap, .fence] :=
  rfl

theorem inMap_invalidateMap (core : Core) :
    inMap invalidateMap (cacheMapL1Icache core) = true := by
  cases core <;> rfl

end Steps

/-! ## The memory the stores leave -/

theorem written_cons (memory : Memory) (write : UInt32 × UInt8)
    (writes : List (UInt32 × UInt8)) :
    written memory (write :: writes) =
      written (Function.update memory write.1 write.2) writes := rfl

theorem written_append (memory : Memory)
    (first second : List (UInt32 × UInt8)) :
    written memory (first ++ second) =
      written (written memory first) second :=
  List.foldl_append

theorem bytesAt_cons_self (start : UInt32) (byte : UInt8)
    (data : List UInt8) : bytesAt start (byte :: data) start = some byte := by
  rw [bytesAt, UInt32.sub_self]
  rfl

theorem bytesAt_cons_of_ne {address start : UInt32}
    (different : address ≠ start) (byte : UInt8) (data : List UInt8) :
    bytesAt start (byte :: data) address =
      bytesAt (start + 1) data address := by
  have apart : address.toNat ≠ start.toNat :=
    fun same => different (UInt32.toNat_inj.mp same)
  have next : (address - start).toNat =
      (address - (start + 1)).toNat + 1 := by
    have one : (1 : UInt32).toNat = 1 := rfl
    have bound := address.toNat_lt
    have bound' := start.toNat_lt
    rw [UInt32.toNat_sub, UInt32.toNat_sub, UInt32.toNat_add, one]
    omega
  rw [bytesAt, next, List.getElem?_cons_succ]
  rfl

/-- The address in front of a copy is not one of its own. -/
theorem bytesAt_succ_self (start : UInt32) {data : List UInt8}
    (short : data.length + 1 < 2 ^ 32) :
    bytesAt (start + 1) data start = none := by
  have behind : (start - (start + 1)).toNat = 2 ^ 32 - 1 := by
    have one : (1 : UInt32).toNat = 1 := rfl
    have bound := start.toNat_lt
    rw [UInt32.toNat_sub, UInt32.toNat_add, one]
    omega
  rw [bytesAt, behind]
  exact List.getElem?_eq_none (by omega)

/-- The bytes of a copy are stored at its addresses, none of them twice. -/
theorem written_storesAt (memory : Memory) (start : UInt32)
    (data : List UInt8) (short : data.length < 2 ^ 32) :
    written memory (storesAt start data) =
      overlay memory (bytesAt start data) := by
  induction data generalizing memory start with
  | nil => rfl
  | cons byte data ih =>
      rw [List.length_cons] at short
      rw [storesAt, written_cons, ih _ _ (by omega)]
      funext address
      by_cases here : address = start
      · subst here
        rw [overlay_of_none (bytesAt_succ_self address short),
          overlay_of_some (bytesAt_cons_self address byte data),
          Function.update_self]
      · rw [overlay, overlay, bytesAt_cons_of_ne here,
          Function.update_of_ne here]

/-- A copy is shorter than the address space. -/
def Event.Short : Event → Prop
  | .memWrite _ data => data.length < 2 ^ 32
  | _ => True

theorem written_writes (memory : Memory) {event : Event}
    (short : event.Short) :
    written memory event.writes = overlay memory event.patch := by
  cases event with
  | memWrite address data => exact written_storesAt memory address data short
  | romRead start dest len => rfl
  | onSegment index loadAddr dataLen => rfl

theorem written_trace (memory : Memory) {trace : List Event}
    (short : ∀ event ∈ trace, event.Short) :
    written memory (trace.flatMap Event.writes) =
      memoryAfter memory trace := by
  induction trace generalizing memory with
  | nil => rfl
  | cons event trace ih =>
      obtain ⟨first, others⟩ := List.forall_mem_cons.mp short
      rw [List.flatMap_cons, written_append, written_writes memory first,
        ih _ others]
      rfl

/-! ## The copies of a boot -/

theorem Event.short_of_intoBuffer {event : Event}
    (buffer : IntoBuffer event) : event.Short := by
  cases event with
  | memWrite address data => exact buffer.elim
  | romRead start dest len => trivial
  | onSegment index loadAddr dataLen => trivial

theorem short_loadTableEvents (flash : Flash) (off : UInt32) (index : Nat)
    (table : List Segment) :
    ∀ event ∈ loadTableEvents flash off index table, event.Short := by
  induction table generalizing index with
  | nil => exact List.forall_mem_nil _
  | cons segment table ih =>
      rw [loadTableEvents]
      intro event member
      rcases List.mem_append.mp member with here | later
      · rw [Segment.loadEvents] at here
        rcases List.mem_cons.mp here with rfl | here
        · trivial
        rcases List.mem_cons.mp here with rfl | here
        · trivial
        rcases List.mem_cons.mp here with rfl | here
        · trivial
        rw [List.mem_singleton.mp here]
        have bound := segment.dataLen.toNat_lt
        simp only [Event.Short, Segment.data, Vector.length_toList]
        exact bound
      · exact ih _ event later

/-- A boot that jumps makes short copies only. -/
theorem short_bootImage {sha : Sha256} {off : UInt32} {flash : Flash}
    {entryAddr : UInt32}
    (booted : ((bootImage sha off).run flash).result = .ok entryAddr) :
    ∀ event ∈ ((bootImage sha off).run flash).trace, event.Short := by
  obtain ⟨header, headerRead, gate, _, _⟩ :=
    result_bootImage_eq_ok_iff.mp booted
  obtain ⟨run, _⟩ := run_bootImage_of_ok headerRead booted
  have gateTrace := (trace_verifyGate_of_ok gate).1
  rw [run, bootReads, ← gateTrace]
  intro event member
  rcases List.mem_cons.mp member with rfl | member
  · trivial
  rcases List.mem_append.mp member with checked | copied
  · exact Event.short_of_intoBuffer
      (emits_verifyGate flash sha off header event checked)
  · exact short_loadTableEvents _ _ _ _ event copied

theorem short_main {P : Platform} {cause : Cause} {flash : Flash}
    {entryAddr : UInt32}
    (jumped : (main P cause flash).result = .ok entryAddr) :
    ∀ event ∈ imageTrace (main P cause flash).events, event.Short := by
  cases picked : (bootPick P cause flash).result with
  | error error =>
      rw [main_of_pick_error P picked] at jumped
      cases jumped
  | ok choice =>
      obtain ⟨chosen, outcome⟩ := choice
      rw [imageTrace_main_of_pick_ok picked]
      rw [main_of_pick_ok P picked] at jumped
      exact short_bootImage jumped

theorem events_main {P : Platform} (texts : Texts P) (cause : Cause)
    (flash : Flash) :
    imageEvents (bootSteps texts cause flash) =
      imageTrace (main P cause flash).events := by
  have same := congrArg (fun body => (body.run flash).events)
    (Sequence.outline_main_eq texts cause)
  simp only [Sequence.outline, Effectful.run_erase, Sequence.run_outlined,
    List.map_id] at same
  rw [imageEvents, bootSteps, same]

/-- A boot that jumps stores its copies, then does the maintenance. -/
theorem cacheCommands_bootSteps {P : Platform} (texts : Texts P)
    (cause : Cause) (flash : Flash) {entryAddr : UInt32}
    (jumped : (main P cause flash).result = .ok entryAddr) :
    cacheCommands (bootSteps texts cause flash) =
      storesOf ((imageTrace (main P cause flash).events).flatMap
        Event.writes) ++
        [.writeback writebackMap, .invalidate invalidateMap, .fence] := by
  have ended := Sequence.run_main texts cause flash
  have result := result_main texts cause flash
  rw [jumped, ended] at result
  obtain ⟨front, quiet, steps⟩ :=
    (Sequence.ends_afterSetUp texts cause flash).1 entryAddr result
  have whole : bootSteps texts cause flash =
      Sequence.setUpSteps ++ (front ++ Sequence.handOffSteps entryAddr) := by
    rw [bootSteps, ended, Ended.after, steps]
  have seen : imageEvents (bootSteps texts cause flash) =
      imageEvents front := by
    rw [whole]
    simp only [imageEvents, List.filterMap_append, imageTrace_append]
    exact List.append_nil _
  rw [← events_main texts, seen, whole, cacheCommands_append,
    cacheCommands_append, cacheCommands_quiet quiet, cacheCommands_handOff]
  rfl

/-! ## The image in memory -/

/-- The cells a segment of an image is copied to. -/
def SegmentImage.patch (segment : SegmentImage) : UInt32 → Option UInt8 :=
  bytesAt segment.loadAddr segment.data

theorem memoryAfter_effects (memory : Memory) (trace : List Event) :
    memoryAfter memory (effects trace) = memoryAfter memory trace := by
  induction trace generalizing memory with
  | nil => rfl
  | cons event trace ih =>
      cases event with
      | romRead start dest len => exact ih memory
      | memWrite address data => exact ih _
      | onSegment index loadAddr dataLen => exact ih _

theorem memoryAfter_loadEffects (memory : Memory) (index : Nat)
    (segments : List SegmentImage) :
    memoryAfter memory (AppImage.loadEffects index segments) =
      overlayAll memory (segments.map SegmentImage.patch) := by
  induction segments generalizing memory index with
  | nil => rfl
  | cons segment segments ih => exact ih _ (index + 1)

theorem JumpedInto.memoryAfter {P : Platform} {image : AppImage}
    {run : FlashRun (BootEvent P) Halt UInt32}
    (jumped : JumpedInto image run) (memory : Memory) :
    memoryAfter memory (imageTrace run.events) =
      overlayAll memory (image.segments.map SegmentImage.patch) := by
  rw [← memoryAfter_effects, jumped.copied, memoryAfter_loadEffects]

/-- Whatever the caches held before, and whatever they and the core do on
their own before, during and after a boot that jumps, every core then fetches
what the loader copied: of an image, the bytes of its segments.  This holds
of every address the boot code stores nothing else to. -/
theorem cores_fetch_the_image {P : Platform} (texts : Texts P)
    (cause : Cause) (flash : Flash) {entryAddr : UInt32}
    (jumped : (main P cause flash).result = .ok entryAddr) {rom : CacheRom}
    (maintains : rom.Maintains)
    {first last : UInt32 → CacheCell} {happenings : List CacheHappening}
    {memory : Memory} {address : UInt32}
    (run : Run (Acts rom .core0) first happenings last)
    (order : commandsOf happenings =
      cacheCommands (bootSteps texts cause flash))
    (spared : Spared address happenings)
    (coherent : (first address).Coherent)
    (front : (first address).front = memory address) :
    (last address).Fetches .core0
        (memoryAfter memory (imageTrace (main P cause flash).events)
          address) ∧
      ∀ image, JumpedInto image (main P cause flash) →
        (last address).Fetches .core0
          (overlayAll memory (image.segments.map SegmentImage.patch)
            address) := by
  rw [cacheCommands_bootSteps texts cause flash jumped] at order
  have fetched := fetches_of_maintenance
    (maintains.writesBack writebackMap)
    (maintains.invalidates invalidateMap) inMap_invalidateMap run order
    spared coherent front
  rw [written_trace memory (short_main jumped)] at fetched
  refine ⟨fetched, ?_⟩
  intro image into
  rw [← into.memoryAfter]
  exact fetched

/-! ## A sample -/

namespace StandIn

/-- The L1 data cache is written back before the L2 cache. -/
def writeback (data shared : Bool) (cell : CacheCell) : CacheCell :=
  let cell := if data then cell.cleanData else cell
  if shared then cell.cleanShared else cell

def invalidate (data shared : Bool) (code : Core → Bool)
    (cell : CacheCell) : CacheCell :=
  { cell with
    data := if data then none else cell.data
    shared := if shared then none else cell.shared
    code := fun core => if code core then none else cell.code core }

def cacheRom : CacheRom :=
  { writeback := fun map before after => after = fun address =>
      writeback (inMap map cacheMapL1Dcache) (inMap map cacheMapL2)
        (before address)
    invalidate := fun map before after => after = fun address =>
      invalidate (inMap map cacheMapL1Dcache) (inMap map cacheMapL2)
        (fun core => inMap map (cacheMapL1Icache core)) (before address) }

theorem writesBack_writeback (data shared : Bool) (cell : CacheCell) :
    cell.WritesBack data shared (writeback data shared cell) := by
  have kept (coherent : cell.Coherent) :
      (writeback data shared cell).Coherent ∧
        (writeback data shared cell).front = cell.front := by
    obtain ⟨first, same⟩ := Cell.coherent_cleanData coherent
    obtain ⟨second, same'⟩ := Cell.coherent_cleanShared first
    cases data with
    | false =>
        cases shared with
        | false => exact ⟨coherent, rfl⟩
        | true => exact Cell.coherent_cleanShared coherent
    | true =>
        cases shared with
        | false => exact ⟨first, same⟩
        | true => exact ⟨second, same'.trans same⟩
  refine ⟨fun coherent => (kept coherent).1,
    fun coherent => (kept coherent).2, ?_, ?_⟩
  · rintro rfl
    cases shared with
    | false => exact Cell.cleanData_clean cell
    | true =>
        intro copy held
        simp only [writeback, if_true, Cell.data_cleanShared] at held
        exact Cell.cleanData_clean cell copy held
  · rintro rfl
    cases data with
    | false => exact Cell.cleanShared_clean cell
    | true => exact Cell.cleanShared_clean cell.cleanData

theorem invalidates_invalidate (data shared : Bool) (code : Core → Bool)
    (cell : CacheCell) :
    cell.Invalidates code (invalidate data shared code cell) := by
  refine ⟨rfl, ?_, ?_, ?_⟩
  · intro copy held
    cases data with
    | false => exact held
    | true => cases held
  · intro copy held
    cases shared with
    | false => exact held
    | true => cases held
  · intro core named
    exact if_pos named

end StandIn

theorem maintains_cacheRom : StandIn.cacheRom.Maintains := by
  constructor
  · rintro map before _ rfl address
    exact StandIn.writesBack_writeback _ _ _
  · rintro map before _ rfl address
    exact StandIn.invalidates_invalidate _ _ _ _

/-- An old byte in the L2 cache, in both instruction caches and ahead of
them, and in memory another one that is older still. -/
def staleCell : CacheCell :=
  { data := none
    shared := some ⟨1, true⟩
    code := fun _ => some 1
    ahead := some 1
    memory := 0 }

theorem coherent_staleCell : staleCell.Coherent := by
  constructor
  · intro clean held
    cases held
  · intro clean held
    cases held

/-- After each command an instruction cache is filled from memory at every
address. -/
def refilled (commands : List CacheCommand) : List CacheHappening :=
  commands.flatMap fun command => [.command command, .background]

theorem commandsOf_refilled (commands : List CacheCommand) :
    commandsOf (refilled commands) = commands := by
  induction commands with
  | nil => rfl
  | cons command commands ih => exact congrArg (command :: ·) ih

theorem spared_refilled (address : UInt32) (commands : List CacheCommand) :
    Spared address (refilled commands) := by
  intro value member
  obtain ⟨command, _, here⟩ := List.mem_flatMap.mp member
  simp at here

theorem exists_run_refilled (first : UInt32 → CacheCell)
    (commands : List CacheCommand) :
    ∃ last, Run (Acts StandIn.cacheRom .core0) first (refilled commands)
      last := by
  induction commands generalizing first with
  | nil => exact ⟨first, .nil first⟩
  | cons command commands ih =>
      have step : ∃ after, StandIn.cacheRom.Does first after command := by
        cases command <;> exact ⟨_, rfl⟩
      obtain ⟨after, done⟩ := step
      obtain ⟨last, rest⟩ := ih _
      exact ⟨last, .cons (.command done) (.cons (.background
        fun address => .fillCode (after address) .core0 true) rest)⟩

/-- Every cache holds old bytes at first, and is filled again and again. -/
theorem cores_fetch_the_image_sample :
    ∃ happenings last,
      Run (Acts StandIn.cacheRom .core0) (fun _ => staleCell) happenings
        last ∧
      commandsOf happenings = cacheCommands
        (bootSteps StandIn.texts .powerOn (oneSlotFlash .a)) ∧
      .background ∈ happenings ∧
      (last 0x4FF50000).Fetches .core0 0x13 := by
  let commands := cacheCommands
    (bootSteps StandIn.texts .powerOn (oneSlotFlash .a))
  obtain ⟨last, run⟩ := exists_run_refilled (fun _ => staleCell) commands
  have order := commandsOf_refilled commands
  have jumped := (boots_oneSlotFlash .powerOn).1
  have loaded : memoryAfter (fun _ => 1)
      (imageTrace (main uptimeStandIn .powerOn (oneSlotFlash .a)).events)
        0x4FF50000 = 0x13 := by
    decide +kernel
  obtain ⟨fetched, _⟩ := @cores_fetch_the_image uptimeStandIn StandIn.texts
    .powerOn (oneSlotFlash .a) _ jumped _ maintains_cacheRom _ _ _
    (fun _ => 1) _ run order (spared_refilled 0x4FF50000 commands)
    coherent_staleCell rfl
  rw [loaded] at fetched
  refine ⟨_, _, run, order, ?_, fetched⟩
  apply List.mem_flatMap.mpr
  refine ⟨.fence, ?_, List.mem_cons_of_mem _ List.mem_cons_self⟩
  simp only [commands, cacheCommands_bootSteps _ _ _ jumped]
  exact List.mem_append_right _ (by simp)

end MiniBootloader
