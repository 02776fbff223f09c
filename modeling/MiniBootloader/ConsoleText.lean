import MiniBootloader.Boot
import MiniBootloader.Library.Numerals

/-!
# The texts of the console

The lines the boot sequence writes, as functions of the values they show.
The `Debug` texts of the source's own errors are written out; texts of types
of other crates are parameters where they are used.
-/

namespace MiniBootloader

open Numerals

/-- One `writeln!`. -/
def newline (text : Text) : Text :=
  text ++ ['\n']

/-! ## Errors -/

/-- A tuple variant with one field. -/
def variant (name : String) (field : Text) : Text :=
  name.toList ++ "(".toList ++ field ++ ")".toList

def FlashError.text : FlashError → Text
  | .unaligned => "Unaligned".toList
  | .rom status => variant "Rom" (integer status.toInt)

def AppLoadError.text : AppLoadError → Text
  | .flash error => variant "Flash" error.text
  | .badMagic magic => variant "BadMagic" (decimal magic.toNat)
  | .segmentTooLarge dataLen =>
      variant "SegmentTooLarge" (decimal dataLen.toNat)
  | .unalignedSegment dataLen =>
      variant "UnalignedSegment" (decimal dataLen.toNat)

def PartitionError.text : PartitionError → Text
  | .flash error => variant "Flash" error.text
  | .noFactoryApp => "NoFactoryApp".toList

def SlotSelectError.text : SlotSelectError → Text
  | .noBootableApp => "NoBootableApp".toList
  | .partition error => variant "Partition" error.text

/-- `{:02x}` of each byte, with a blank in front. -/
def hexBytes (bytes : Digest) : Text :=
  bytes.toList.flatMap fun b =>
    ' ' :: padLeft '0' 2 (lowerHex b.toNat)

/-- What is printed of a refused digest check. -/
def VerifyError.report : VerifyError → Text
  | .mismatch expected actual =>
      newline "sha256: MISMATCH — refusing to boot".toList ++
        newline ("  expected:".toList ++ hexBytes expected) ++
        newline ("  actual:  ".toList ++ hexBytes actual)
  | .flash error =>
      newline ("sha256: ERR ".toList ++ variant "Flash" error.text ++
        " — refusing to boot".toList)
  | .noHash =>
      newline ("sha256: ERR NoHash".toList ++
        " — refusing to boot".toList)
  | .totalSize error =>
      newline ("sha256: ERR ".toList ++ variant "TotalSize" error.text ++
        " — refusing to boot".toList)

/-- The last thing `main` prints before the heartbeat loop. -/
def Halt.report : Halt → Text
  | .pick error => newline ("slot_select::pick ERR ".toList ++ error.text)
  | .header error => newline ("app::read_header ERR ".toList ++ error.text)
  | .verify error => error.report
  | .load error => newline ("app::load_segments ERR ".toList ++ error.text)

/-! ## Lines of the image -/

def boolText (b : Bool) : Text :=
  if b then "true".toList else "false".toList

def headerLine (h : ImageHeader) : Text :=
  newline ("app header: magic=0x".toList ++
    padLeft '0' 2 (upperHex h.magic.toNat) ++ " segs=".toList ++
    decimal h.segmentCount.toNat ++ " entry=0x".toList ++
    padLeft '0' 8 (upperHex h.entryAddr.toNat) ++ " chip=0x".toList ++
    padLeft '0' 4 (upperHex h.chipId.toNat) ++ " hash=".toList ++
    boolText h.hashAppended)

/-- The first and the last four bytes of an accepted digest. -/
def digestLine (d : Digest) : Text :=
  let bytes := fun (part : List UInt8) =>
    part.flatMap fun b => padLeft '0' 2 (lowerHex b.toNat)
  newline ("sha256: OK (".toList ++ bytes (d.toList.take 4) ++ "…".toList ++
    bytes (d.toList.drop 28) ++ ")".toList)

def segmentLine (i : Nat) (la dl : UInt32) : Text :=
  newline ("  seg".toList ++ decimal i ++ ": load=0x".toList ++
    padLeft '0' 8 (upperHex la.toNat) ++ " len=".toList ++
    decimal dl.toNat ++ " (".toList ++ decimal (dl / 1024).toNat ++
    " KB)".toList)

/-- The line of a partition that is going to be booted. -/
def bootSlotLine (label : String) (part : PartitionEntry) : Text :=
  newline ("boot slot: ".toList ++ label.toList ++ " @ 0x".toList ++
    upperHex part.offset.toNat ++ " (".toList ++
    decimal (part.size / 1024).toNat ++ " KB)".toList)

def factoryLine (label : Text) (part : PartitionEntry) : Text :=
  newline ("factory app: label=".toList ++ label ++ " offset=0x".toList ++
    upperHex part.offset.toNat ++ " (".toList ++
    decimal (part.size / 1024).toNat ++
    " KB) — booting as fallback".toList)

/-! ## The heartbeat -/

def tickLine (tick : UInt32) : Text :=
  newline ("bl-tick ".toList ++ decimal tick.toNat)

/-- The first lines of the heartbeat loop, from a tick on. -/
def heartbeat : Nat → UInt32 → List Text
  | 0, _ => []
  | remaining + 1, tick => tickLine tick :: heartbeat remaining (tick + 1)

/-! ## The errors can be told apart -/

theorem newline_inj {text text' : Text} (same : newline text = newline text') :
    text = text' :=
  List.append_cancel_right same

theorem variant_inj {name : String} {field field' : Text}
    (same : variant name field = variant name field') : field = field' := by
  rw [variant, variant] at same
  exact List.append_cancel_left (List.append_cancel_right same)

/-- Texts with different characters at a position are different. -/
theorem text_ne_of_getElem? {text text' : Text} (position : Nat)
    {c c' : Char} (differ : c ≠ c') (here : text[position]? = some c)
    (there : text'[position]? = some c') : text ≠ text' := by
  intro same
  rw [same, there] at here
  exact differ (Option.some.inj here).symm

theorem FlashError.text_injective {error error' : FlashError}
    (same : error.text = error'.text) : error = error' := by
  cases error with
  | unaligned =>
      cases error' with
      | unaligned => rfl
      | rom status' =>
          exact (text_ne_of_getElem? 0 (by decide : 'U' ≠ 'R') rfl rfl
            same).elim
  | rom status =>
      cases error' with
      | unaligned =>
          exact (text_ne_of_getElem? 0 (by decide : 'R' ≠ 'U') rfl rfl
            same).elim
      | rom status' =>
          have number := integer_injective (variant_inj same)
          rw [Int32.toInt_inj.mp number]

/-- The first letter names the variant. -/
def AppLoadError.initial : AppLoadError → Char
  | .flash _ => 'F'
  | .badMagic _ => 'B'
  | .segmentTooLarge _ => 'S'
  | .unalignedSegment _ => 'U'

theorem AppLoadError.text_initial (error : AppLoadError) :
    error.text[0]? = some error.initial := by
  cases error <;> rfl

theorem AppLoadError.text_injective {error error' : AppLoadError}
    (same : error.text = error'.text) : error = error' := by
  have initials : error.initial = error'.initial := by
    have first := congrArg (fun text => text[0]?) same
    simp only [AppLoadError.text_initial, Option.some.injEq] at first
    exact first
  cases error with
  | flash error =>
      cases error' with
      | flash error' => rw [FlashError.text_injective (variant_inj same)]
      | _ => simp [AppLoadError.initial] at initials
  | badMagic magic =>
      cases error' with
      | badMagic magic' =>
          have number := decimal_injective (variant_inj same)
          rw [UInt8.toNat_inj.mp number]
      | _ => simp [AppLoadError.initial] at initials
  | segmentTooLarge dataLen =>
      cases error' with
      | segmentTooLarge dataLen' =>
          have number := decimal_injective (variant_inj same)
          rw [UInt32.toNat_inj.mp number]
      | _ => simp [AppLoadError.initial] at initials
  | unalignedSegment dataLen =>
      cases error' with
      | unalignedSegment dataLen' =>
          have number := decimal_injective (variant_inj same)
          rw [UInt32.toNat_inj.mp number]
      | _ => simp [AppLoadError.initial] at initials

theorem PartitionError.text_injective {error error' : PartitionError}
    (same : error.text = error'.text) : error = error' := by
  cases error with
  | flash error =>
      cases error' with
      | flash error' => rw [FlashError.text_injective (variant_inj same)]
      | noFactoryApp =>
          exact (text_ne_of_getElem? 0 (by decide : 'F' ≠ 'N') rfl rfl
            same).elim
  | noFactoryApp =>
      cases error' with
      | flash error' =>
          exact (text_ne_of_getElem? 0 (by decide : 'N' ≠ 'F') rfl rfl
            same).elim
      | noFactoryApp => rfl

theorem SlotSelectError.text_injective {error error' : SlotSelectError}
    (same : error.text = error'.text) : error = error' := by
  cases error with
  | noBootableApp =>
      cases error' with
      | noBootableApp => rfl
      | partition error' =>
          exact (text_ne_of_getElem? 0 (by decide : 'N' ≠ 'P') rfl rfl
            same).elim
  | partition error =>
      cases error' with
      | noBootableApp =>
          exact (text_ne_of_getElem? 0 (by decide : 'P' ≠ 'N') rfl rfl
            same).elim
      | partition error' =>
          rw [PartitionError.text_injective (variant_inj same)]

theorem hexByte_injective {b b' : UInt8}
    (same : ' ' :: padLeft '0' 2 (lowerHex b.toNat) =
      ' ' :: padLeft '0' 2 (lowerHex b'.toNat)) : b = b' := by
  have value := congrArg (valueIn 16) (List.cons.inj same).2
  rw [valueIn_padLeft, valueIn_padLeft, valueIn_lowerHex,
    valueIn_lowerHex] at value
  exact UInt8.toNat_inj.mp value

theorem length_hexByte (b : UInt8) :
    (' ' :: padLeft '0' 2 (lowerHex b.toNat)).length = 3 := by
  have bound := b.toNat_lt
  rw [List.length_cons, length_padLeft_lowerHex (by decide) (by omega)]

theorem hexBytes_injective {bytes bytes' : Digest}
    (same : hexBytes bytes = hexBytes bytes') : bytes = bytes' :=
  Vector.toList_inj.mp (flatMap_injective length_hexByte (by decide)
    (fun _ _ => hexByte_injective) same)

theorem length_hexBytes (bytes bytes' : Digest) :
    (hexBytes bytes).length = (hexBytes bytes').length := by
  simp only [hexBytes, List.length_flatMap, length_hexByte,
    List.map_const', Vector.length_toList]

/-- The letter at which the reports of a refused check differ. -/
def VerifyError.initial : VerifyError → Char
  | .mismatch _ _ => 'A'
  | .flash _ => 'F'
  | .noHash => 'N'
  | .totalSize _ => 'T'

theorem VerifyError.report_initial (error : VerifyError) :
    error.report[12]? = some error.initial := by
  cases error <;> rfl

/-- What is shown in front of the dash of a refusal. -/
theorem refusal_inj {text text' : Text}
    (same : newline ("sha256: ERR ".toList ++ text ++
        " — refusing to boot".toList) =
      newline ("sha256: ERR ".toList ++ text' ++
        " — refusing to boot".toList)) : text = text' := by
  have shown := newline_inj same
  rw [List.append_assoc, List.append_assoc] at shown
  exact List.append_cancel_right (List.append_cancel_left shown)

theorem VerifyError.report_injective {error error' : VerifyError}
    (same : error.report = error'.report) : error = error' := by
  have initials : error.initial = error'.initial := by
    have letter := congrArg (fun text => text[12]?) same
    simp only [VerifyError.report_initial, Option.some.injEq] at letter
    exact letter
  cases error with
  | mismatch expected actual =>
      cases error' with
      | mismatch expected' actual' =>
          simp only [VerifyError.report, List.append_assoc] at same
          have lines := List.append_cancel_left same
          obtain ⟨first, second⟩ := List.append_inj lines (by
            simp only [newline, List.length_append,
              length_hexBytes expected expected'])
          have expecteds := List.append_cancel_left (newline_inj first)
          have actuals := List.append_cancel_left (newline_inj second)
          rw [hexBytes_injective expecteds, hexBytes_injective actuals]
      | _ => simp [VerifyError.initial] at initials
  | flash error =>
      cases error' with
      | flash error' =>
          rw [FlashError.text_injective (variant_inj (refusal_inj same))]
      | _ => simp [VerifyError.initial] at initials
  | noHash =>
      cases error' with
      | noHash => rfl
      | _ => simp [VerifyError.initial] at initials
  | totalSize error =>
      cases error' with
      | totalSize error' =>
          rw [AppLoadError.text_injective (variant_inj (refusal_inj same))]
      | _ => simp [VerifyError.initial] at initials

/-- The letter at which the reports of a halt differ. -/
def Halt.initial : Halt → Char
  | .pick _ => 's'
  | .header _ => 'r'
  | .verify _ => '6'
  | .load _ => 'l'

theorem Halt.report_initial (halt : Halt) :
    halt.report[5]? = some halt.initial := by
  cases halt with
  | verify error => cases error <;> rfl
  | _ => rfl

/-- What is printed before the heartbeat loop tells why the boot ended. -/
theorem Halt.report_injective {halt halt' : Halt}
    (same : halt.report = halt'.report) : halt = halt' := by
  have initials : halt.initial = halt'.initial := by
    have letter := congrArg (fun text => text[5]?) same
    simp only [Halt.report_initial, Option.some.injEq] at letter
    exact letter
  cases halt with
  | pick error =>
      cases halt' with
      | pick error' =>
          have texts := List.append_cancel_left (newline_inj same)
          rw [SlotSelectError.text_injective texts]
      | _ => simp [Halt.initial] at initials
  | header error =>
      cases halt' with
      | header error' =>
          have texts := List.append_cancel_left (newline_inj same)
          rw [AppLoadError.text_injective texts]
      | _ => simp [Halt.initial] at initials
  | verify error =>
      cases halt' with
      | verify error' => rw [VerifyError.report_injective same]
      | _ => simp [Halt.initial] at initials
  | load error =>
      cases halt' with
      | load error' =>
          have texts := List.append_cancel_left (newline_inj same)
          rw [AppLoadError.text_injective texts]
      | _ => simp [Halt.initial] at initials

end MiniBootloader
