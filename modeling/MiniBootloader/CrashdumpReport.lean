import MiniBootloader.Flash
import MiniBootloader.Library.Numerals
import MiniBootloader.Uart

/-!
# The crash dump on the console

What `print_if_present` prints.  Reading the dump format is the work of
another crate, so a dump is the record of its fields here.  The text is a
list of lines with a value behind a label, eight lines of registers and the
escaped tail of the UART log.
-/

namespace MiniBootloader

open Numerals

/-- The tags of `p4_crashdump::reason`. -/
inductive CrashReason where
  | panic
  | trap
  | watchdog
  | brownout
  | other
  deriving DecidableEq, Repr

/-- The fields of `p4_crashdump::CrashDump` that are printed. -/
@[ext] structure CrashDump where
  timestampUs : Nat
  reasonTag : UInt32
  bootCount : Nat
  mcause : UInt32
  mepc : UInt32
  mtval : UInt32
  mstatus : UInt32
  /-- `message_str`. -/
  message : Text
  registers : Vector UInt32 31
  /-- `uart_tail_used`. -/
  uartTail : List UInt8

/-- What the code uses of the `p4_crashdump` crate besides `is_present`. -/
structure P4Crashdump where
  Error : Type
  showError : Error → Text
  tag : CrashReason → UInt32
  loadFromFlash : UInt32 → Flash → Except Error CrashDump

namespace CrashdumpReport

def reasonName (tag : CrashReason → UInt32) (reasonTag : UInt32) : Text :=
  if reasonTag = tag .panic then "panic".toList
  else if reasonTag = tag .trap then "trap".toList
  else if reasonTag = tag .watchdog then "watchdog".toList
  else if reasonTag = tag .brownout then "brownout".toList
  else if reasonTag = tag .other then "other".toList
  else "unknown".toList

/-- The names of the standard machine-mode interrupts. -/
def interruptName (code : UInt32) : Text :=
  if code = 3 then "machine software intr".toList
  else if code = 7 then "machine timer intr".toList
  else if code = 11 then "machine external intr".toList
  else "platform/clic intr".toList

/-- The names of the standard exceptions. -/
def exceptionName (code : UInt32) : Text :=
  if code = 0 then "instr addr misaligned".toList
  else if code = 1 then "instr access fault".toList
  else if code = 2 then "illegal instruction".toList
  else if code = 3 then "breakpoint".toList
  else if code = 4 then "load addr misaligned".toList
  else if code = 5 then "load access fault".toList
  else if code = 6 then "store/AMO addr misaligned".toList
  else if code = 7 then "store/AMO access fault".toList
  else if code = 8 then "ecall from U-mode".toList
  else if code = 9 then "ecall from S-mode".toList
  else if code = 11 then "ecall from M-mode".toList
  else if code = 12 then "instr page fault".toList
  else if code = 13 then "load page fault".toList
  else if code = 15 then "store/AMO page fault".toList
  else "exception".toList

/-- The `Display` of `McauseDecode`. -/
def mcauseDecode (v : UInt32) : Text :=
  let isInterrupt := v &&& 0x80000000 ≠ 0
  let code := v &&& 0x7FFFFFFF
  if isInterrupt then "interrupt: ".toList ++ interruptName code
  else "exception: ".toList ++ exceptionName code

/-- `0x{:08X}`, without the `0x`. -/
def word (v : UInt32) : Text :=
  padLeft '0' 8 (upperHex v.toNat)

def printRegister (regs : Vector UInt32 31) (i : Nat) : Text :=
  " x".toList ++ padRight 2 (decimal (i + 1)) ++ "=0x".toList ++
    word (regs.toList.getD i 0)

/-- The inner loop of `print_registers`, from `chunk_start` on. -/
def printRegisterLine (regs : Vector UInt32 31) (chunkStart : Nat) :
    Text :=
  "   ".toList ++
    (List.range' chunkStart (min (chunkStart + 4) 31 - chunkStart)).flatMap
      (printRegister regs) ++
    ['\n']

def printRegisters (regs : Vector UInt32 31) : Text :=
  [0, 4, 8, 12, 16, 20, 24, 28].flatMap (printRegisterLine regs)

def printEscapedByte (b : UInt8) : Text :=
  if b = 10 then ['\n']
  else if b = 13 then []
  else if b = 9 then "    ".toList
  else if 0x20 ≤ b ∧ b ≤ 0x7E then [Char.ofNat b.toNat]
  else "\\x".toList ++ padLeft '0' 2 (upperHex b.toNat)

def printEscapedBytes (bytes : List UInt8) : Text :=
  bytes.flatMap printEscapedByte

/-- The lines of a dump in front of its message. -/
def printHead (tag : CrashReason → UInt32) (dump : CrashDump)
    (partitionOffset : UInt32) : Text :=
  line [] [] ++
    line "=== crashdump from previous boot ===".toList [] ++
    line "  partition    : 0x".toList
      (padLeft '0' 5 (upperHex partitionOffset.toNat)) ++
    line "  timestamp_us : ".toList (decimal dump.timestampUs) ++
    line "  reason_tag   : ".toList
      (decimal dump.reasonTag.toNat ++ " (".toList ++
        reasonName tag dump.reasonTag ++ ")".toList) ++
    line "  boot_count   : ".toList (decimal dump.bootCount) ++
    line "  mcause       : 0x".toList
      (word dump.mcause ++ " (".toList ++ mcauseDecode dump.mcause ++
        ")".toList) ++
    line "  mepc         : 0x".toList (word dump.mepc) ++
    line "  mtval        : 0x".toList (word dump.mtval) ++
    line "  mstatus      : 0x".toList (word dump.mstatus)

def printMessage (msg : Text) : Text :=
  if msg.isEmpty then []
  else line "  message      : \"".toList (msg ++ "\"".toList)

def printTailText (used : List UInt8) : Text :=
  if used.isEmpty then []
  else
    line "  ----- BEGIN UART TAIL -----".toList [] ++
      printEscapedBytes used ++ line [] [] ++
      line "  ----- END UART TAIL -----".toList []

def printTail (used : List UInt8) : Text :=
  line "  uart tail    : ".toList
      (decimal used.length ++ " bytes".toList) ++
    printTailText used

def printFooter (partitionOffset : UInt32) : Text :=
  line "=== end crashdump ===".toList [] ++
    "note: app should forward the dump and call ".toList ++
    "p4_crashdump::erase(0x".toList ++
    padLeft '0' 5 (upperHex partitionOffset.toNat) ++
    line ") when done".toList []

def printDump (tag : CrashReason → UInt32) (dump : CrashDump)
    (partitionOffset : UInt32) : Text :=
  printHead tag dump partitionOffset ++ printMessage dump.message ++
    line "  registers (x1..x31):".toList [] ++
    printRegisters dump.registers ++ printTail dump.uartTail ++
    printFooter partitionOffset

/-- The text `print_if_present` writes. -/
def printIfPresent (crate : P4Crashdump) (isPresent : Bool)
    (partitionOffset : UInt32) (flash : Flash) : Text :=
  if isPresent then
    match crate.loadFromFlash partitionOffset flash with
    | .ok dump => printDump crate.tag dump partitionOffset
    | .error e =>
        "crashdump: magic OK at 0x".toList ++
          padLeft '0' 5 (upperHex partitionOffset.toNat) ++
          line " but decode failed: ".toList (crate.showError e)
  else
    []

/-! ## The escaped tail -/

/-- The reader of a tail. -/
def unescape : Text → List UInt8
  | '\\' :: 'x' :: high :: low :: rest =>
      UInt8.ofNat (valueIn 16 [high, low]) :: unescape rest
  | c :: rest => UInt8.ofNat c.toNat :: unescape rest
  | [] => []

/-- What the reader sees of a byte: a tab is four blanks, and carriage
returns are left out. -/
def readable (b : UInt8) : List UInt8 :=
  if b = 9 then [32, 32, 32, 32] else if b = 13 then [] else [b]

theorem unescape_cons {c : Char} (plain : c ≠ '\\') (rest : Text) :
    unescape (c :: rest) = UInt8.ofNat c.toNat :: unescape rest := by
  rw [unescape.eq_def]
  split
  · rename_i same
    exact (plain (List.cons.inj same).1).elim
  · rename_i same
    obtain ⟨rfl, rfl⟩ := List.cons.inj same
    rfl
  · rename_i same
    cases same

theorem toNat_printable {b : UInt8} (small : b ≤ 0x7E) :
    (Char.ofNat b.toNat).toNat = b.toNat := by
  have bound : b.toNat ≤ 126 := UInt8.le_iff_toNat_le.mp small
  have valid : b.toNat.isValidChar := .inl (by omega)
  rw [Char.ofNat, dif_pos valid]
  rfl

theorem exists_hexPair (b : UInt8) :
    ∃ high low, padLeft '0' 2 (upperHex b.toNat) = [high, low] ∧
      valueIn 16 [high, low] = b.toNat := by
  have bound := b.toNat_lt
  have two : (padLeft '0' 2 (upperHex b.toNat)).length = 2 :=
    length_padLeft_upperHex (by decide) (by omega)
  obtain ⟨high, low, pair⟩ := List.length_eq_two.mp two
  refine ⟨high, low, pair, ?_⟩
  rw [← pair, valueIn_padLeft, valueIn_upperHex]

theorem unescape_printEscapedByte {b : UInt8} (plain : b ≠ 0x5C)
    (rest : Text) :
    unescape (printEscapedByte b ++ rest) = readable b ++ unescape rest := by
  rw [printEscapedByte, readable]
  by_cases newline : b = 10
  · subst newline
    exact unescape_cons (by decide) rest
  by_cases carriage : b = 13
  · subst carriage
    rfl
  by_cases tab : b = 9
  · subst tab
    have blank (more : Text) :
        unescape (' ' :: more) = 32 :: unescape more :=
      unescape_cons (by decide) more
    simp only [newline, carriage, if_false, if_true]
    change unescape (' ' :: ' ' :: ' ' :: ' ' :: rest) = _
    rw [blank, blank, blank, blank]
    rfl
  simp only [newline, carriage, tab, if_false, List.singleton_append]
  by_cases printable : 0x20 ≤ b ∧ b ≤ 0x7E
  · have number := toNat_printable printable.2
    rw [if_pos printable, List.singleton_append, unescape_cons, number,
      UInt8.ofNat_toNat]
    intro backslash
    rw [backslash] at number
    exact plain (UInt8.toNat_inj.mp number.symm)
  · obtain ⟨high, low, pair, value⟩ := exists_hexPair b
    rw [if_neg printable, pair]
    change UInt8.ofNat (valueIn 16 [high, low]) :: unescape rest = _
    rw [value, UInt8.ofNat_toNat]

theorem printEscapedBytes_cons (b : UInt8) (bytes : List UInt8) :
    printEscapedBytes (b :: bytes) =
      printEscapedByte b ++ printEscapedBytes bytes :=
  List.flatMap_cons

/-- A character that does not control the console. -/
def Printable (c : Char) : Prop :=
  0x20 ≤ c.toNat ∧ c.toNat ≤ 0x7E

instance (c : Char) : Decidable (Printable c) :=
  inferInstanceAs (Decidable (_ ∧ _))

theorem printable_of_isNumeral {c : Char} (numeral : IsNumeral c) :
    Printable c := by
  have all : ∀ d ∈ "0123456789ABCDEFabcdef".toList, Printable d := by
    simp [Printable]
  exact all c numeral

theorem printable_printEscapedByte {b : UInt8} {c : Char}
    (member : c ∈ printEscapedByte b) : c = '\n' ∨ Printable c := by
  rw [printEscapedByte] at member
  by_cases newline : b = 10
  · rw [if_pos newline] at member
    exact .inl (List.mem_singleton.mp member)
  rw [if_neg newline] at member
  right
  by_cases carriage : b = 13
  · rw [if_pos carriage] at member
    cases member
  rw [if_neg carriage] at member
  by_cases tab : b = 9
  · rw [if_pos tab] at member
    have blanks : ∀ d ∈ "    ".toList, Printable d := by simp [Printable]
    exact blanks c member
  rw [if_neg tab] at member
  by_cases printable : 0x20 ≤ b ∧ b ≤ 0x7E
  · rw [if_pos printable, List.mem_singleton] at member
    have number := toNat_printable printable.2
    rw [Printable, member, number]
    exact ⟨UInt8.le_iff_toNat_le.mp printable.1,
      UInt8.le_iff_toNat_le.mp printable.2⟩
  · rw [if_neg printable] at member
    rcases List.mem_append.mp member with front | digits
    · have escape : ∀ d ∈ "\\x".toList, Printable d := by simp [Printable]
      exact escape c front
    · apply printable_of_isNumeral
      exact isNumeral_padLeft (fun _ => isNumeral_upperHex) digits

/-- Whatever the log held, its copy in a dump cannot drive the console; the
line ends of this console leave no trace in it; and without a backslash in
the log it reads as it was, but for tabs and carriage returns. -/
theorem printEscapedBytes_faithful (bytes : List UInt8) :
    (∀ c ∈ printEscapedBytes bytes, c = '\n' ∨ Printable c) ∧
      printEscapedBytes (Uart.crlf bytes) = printEscapedBytes bytes ∧
      (0x5C ∉ bytes →
        unescape (printEscapedBytes bytes) = bytes.flatMap readable) := by
  refine ⟨?_, ?_, ?_⟩
  · intro c member
    obtain ⟨b, _, printed⟩ := List.mem_flatMap.mp member
    exact printable_printEscapedByte printed
  · induction bytes with
    | nil => rfl
    | cons b bytes ih =>
        rw [printEscapedBytes_cons, ← ih, Uart.crlf_cons]
        by_cases newline : b = 10
        · subst newline
          rfl
        · rw [if_neg newline, List.singleton_append, printEscapedBytes_cons]
  · intro clean
    induction bytes with
    | nil => rfl
    | cons b bytes ih =>
        have here : b ≠ 0x5C :=
          fun same => clean (List.mem_cons.mpr (.inl same.symm))
        have rest : 0x5C ∉ bytes :=
          fun member => clean (List.mem_cons_of_mem _ member)
        rw [printEscapedBytes_cons, unescape_printEscapedByte here, ih rest,
          List.flatMap_cons]

/-! ## The registers -/

/-- The reader of the registers: eight digits behind every `=0x`. -/
def readRegisters : Text → List Nat
  | [] => []
  | c :: rest =>
      if c = '=' then
        valueIn 16 ((rest.drop 2).take 8) :: readRegisters (rest.drop 10)
      else
        readRegisters rest
  termination_by text => text.length
  decreasing_by
    all_goals
      simp only [List.length_drop, List.length_cons]
      omega

theorem readRegisters_skip {front : Text} (clean : '=' ∉ front)
    (rest : Text) : readRegisters (front ++ rest) = readRegisters rest := by
  induction front with
  | nil => rfl
  | cons c front ih =>
      have here : c ≠ '=' :=
        fun same => clean (List.mem_cons.mpr (.inl same.symm))
      have behind : '=' ∉ front :=
        fun member => clean (List.mem_cons_of_mem _ member)
      rw [List.cons_append, readRegisters, if_neg here, ih behind]

theorem length_word (v : UInt32) : (word v).length = 8 :=
  length_padLeft_upperHex (by decide) v.toNat_lt

theorem valueIn_word (v : UInt32) : valueIn 16 (word v) = v.toNat := by
  rw [word, valueIn_padLeft, valueIn_upperHex]

theorem isNumeral_word {v : UInt32} {c : Char} (member : c ∈ word v) :
    IsNumeral c :=
  isNumeral_padLeft (fun _ => isNumeral_upperHex) member

theorem readRegisters_printRegister (regs : Vector UInt32 31) (i : Nat)
    (rest : Text) :
    readRegisters (printRegister regs i ++ rest) =
      (regs.toList.getD i 0).toNat :: readRegisters rest := by
  have clean : '=' ∉ " x".toList ++ padRight 2 (decimal (i + 1)) := by
    intro member
    rcases List.mem_append.mp member with label | name
    · exact absurd label (by decide)
    · rcases List.mem_append.mp name with digits | blanks
      · exact absurd (isNumeral_decimal digits) (by decide)
      · exact absurd (List.eq_of_mem_replicate blanks) (by decide)
  have long := length_word (regs.toList.getD i 0)
  have value := valueIn_word (regs.toList.getD i 0)
  rw [printRegister, List.append_assoc, List.append_assoc,
    readRegisters_skip clean]
  generalize word (regs.toList.getD i 0) = digits at long value
  change readRegisters ('=' :: '0' :: 'x' :: (digits ++ rest)) = _
  rw [readRegisters, if_pos rfl]
  have shown : (('0' :: 'x' :: (digits ++ rest)).drop 2).take 8 = digits := by
    rw [List.drop_succ_cons, List.drop_succ_cons, List.drop_zero, ← long,
      List.take_left]
  have left : ('0' :: 'x' :: (digits ++ rest)).drop 10 = rest := by
    rw [List.drop_succ_cons, List.drop_succ_cons, ← long, List.drop_left]
  rw [shown, left, value]

theorem readRegisters_flatMap (regs : Vector UInt32 31)
    (indices : List Nat) (rest : Text) :
    readRegisters (indices.flatMap (printRegister regs) ++ rest) =
      indices.map (fun i => (regs.toList.getD i 0).toNat) ++
        readRegisters rest := by
  induction indices with
  | nil => rfl
  | cons i indices ih =>
      rw [List.flatMap_cons, List.append_assoc, readRegisters_printRegister,
        ih, List.map_cons, List.cons_append]

theorem readRegisters_printRegisterLine (regs : Vector UInt32 31)
    (chunkStart : Nat) (rest : Text) :
    readRegisters (printRegisterLine regs chunkStart ++ rest) =
      (List.range' chunkStart
          (min (chunkStart + 4) 31 - chunkStart)).map
        (fun i => (regs.toList.getD i 0).toNat) ++ readRegisters rest := by
  have indent : '=' ∉ "   ".toList := by decide
  have newline : '=' ∉ ['\n'] := by decide
  rw [printRegisterLine, List.append_assoc, List.append_assoc,
    readRegisters_skip indent, readRegisters_flatMap,
    readRegisters_skip newline]

theorem readRegisters_lines (regs : Vector UInt32 31) (starts : List Nat) :
    readRegisters (starts.flatMap (printRegisterLine regs)) =
      (starts.flatMap fun start =>
        List.range' start (min (start + 4) 31 - start)).map
          (fun i => (regs.toList.getD i 0).toNat) := by
  induction starts with
  | nil => rw [List.flatMap_nil, readRegisters]; rfl
  | cons start starts ih =>
      rw [List.flatMap_cons, readRegisters_printRegisterLine, ih,
        List.flatMap_cons, List.map_append]

/-- Every register is printed once and in order. -/
theorem readRegisters_printRegisters (regs : Vector UInt32 31) :
    readRegisters (printRegisters regs) =
      regs.toList.map UInt32.toNat := by
  have indices : ([0, 4, 8, 12, 16, 20, 24, 28].flatMap fun start =>
      List.range' start (min (start + 4) 31 - start)) = List.range 31 := by
    decide
  rw [printRegisters, readRegisters_lines, indices]
  apply List.ext_getElem
  · simp
  · intro i inLeft inRight
    have below : i < 31 := by simpa using inRight
    simp [below]

/-! ## The whole dump -/

theorem newline_not_mem_of_numeral {text : Text}
    (numeral : ∀ c ∈ text, IsNumeral c) : '\n' ∉ text := by
  intro member
  exact absurd (numeral '\n' member) (by decide)

theorem newline_not_mem_decimal (n : Nat) : '\n' ∉ decimal n :=
  newline_not_mem_of_numeral fun _ => isNumeral_decimal

theorem newline_not_mem_word (v : UInt32) : '\n' ∉ word v :=
  newline_not_mem_of_numeral fun _ => isNumeral_word

theorem newline_not_mem_ite {condition : Prop} [Decidable condition]
    {yes no : Text} (inYes : '\n' ∉ yes) (inNo : '\n' ∉ no) :
    '\n' ∉ if condition then yes else no := by
  split
  · exact inYes
  · exact inNo

theorem newline_not_mem_reasonName (tag : CrashReason → UInt32)
    (reasonTag : UInt32) : '\n' ∉ reasonName tag reasonTag := by
  rw [reasonName]
  repeat' apply newline_not_mem_ite
  all_goals decide

theorem newline_not_mem_mcauseDecode (v : UInt32) :
    '\n' ∉ mcauseDecode v := by
  have interrupt (code : UInt32) : '\n' ∉ interruptName code := by
    rw [interruptName]
    repeat' apply newline_not_mem_ite
    all_goals decide
  have exception (code : UInt32) : '\n' ∉ exceptionName code := by
    rw [exceptionName]
    repeat' apply newline_not_mem_ite
    all_goals decide
  apply newline_not_mem_ite
  · rw [List.mem_append, not_or]
    exact ⟨by decide, interrupt _⟩
  · rw [List.mem_append, not_or]
    exact ⟨by decide, exception _⟩

/-- A numeral in front of a name in parentheses. -/
theorem annotated_inj {number number' name name' : Text}
    (numeral : ∀ c ∈ number, IsNumeral c)
    (numeral' : ∀ c ∈ number', IsNumeral c)
    (same : number ++ " (".toList ++ name ++ ")".toList =
      number' ++ " (".toList ++ name' ++ ")".toList) : number = number' := by
  have blank {text : Text} (digits : ∀ c ∈ text, IsNumeral c) :
      ' ' ∉ text := by
    intro member
    exact absurd (digits ' ' member) (by decide)
  simp only [List.append_assoc] at same
  exact (delimited_inj (blank numeral) (blank numeral') same).1

theorem newline_not_mem_annotated {number name : Text}
    (number' : '\n' ∉ number) (name' : '\n' ∉ name) :
    '\n' ∉ number ++ " (".toList ++ name ++ ")".toList := by
  simp only [List.mem_append, not_or]
  exact ⟨⟨⟨number', by decide⟩, name'⟩, by decide⟩

theorem word_injective {v v' : UInt32} (same : word v = word v') :
    v = v' :=
  UInt32.toNat_inj.mp (padded_injective same)

/-- The two dumps agree in what is printed in front of the message. -/
structure SameHead (dump dump' : CrashDump) : Prop where
  timestampUs : dump.timestampUs = dump'.timestampUs
  reasonTag : dump.reasonTag = dump'.reasonTag
  bootCount : dump.bootCount = dump'.bootCount
  mcause : dump.mcause = dump'.mcause
  mepc : dump.mepc = dump'.mepc
  mtval : dump.mtval = dump'.mtval
  mstatus : dump.mstatus = dump'.mstatus

theorem printHead_append (tag : CrashReason → UInt32) (dump : CrashDump)
    (offset : UInt32) (rest : Text) :
    printHead tag dump offset ++ rest =
      line [] [] ++
        (line "=== crashdump from previous boot ===".toList [] ++
        (line "  partition    : 0x".toList
          (padLeft '0' 5 (upperHex offset.toNat)) ++
        (line "  timestamp_us : ".toList (decimal dump.timestampUs) ++
        (line "  reason_tag   : ".toList
          (decimal dump.reasonTag.toNat ++ " (".toList ++
            reasonName tag dump.reasonTag ++ ")".toList) ++
        (line "  boot_count   : ".toList (decimal dump.bootCount) ++
        (line "  mcause       : 0x".toList
          (word dump.mcause ++ " (".toList ++ mcauseDecode dump.mcause ++
            ")".toList) ++
        (line "  mepc         : 0x".toList (word dump.mepc) ++
        (line "  mtval        : 0x".toList (word dump.mtval) ++
        (line "  mstatus      : 0x".toList (word dump.mstatus) ++
          rest))))))))) := by
  simp only [printHead, List.append_assoc]

theorem printHead_inj {tag : CrashReason → UInt32} {dump dump' : CrashDump}
    {offset offset' : UInt32} {rest rest' : Text}
    (same : printHead tag dump offset ++ rest =
      printHead tag dump' offset' ++ rest') :
    offset = offset' ∧ SameHead dump dump' ∧ rest = rest' := by
  have address (v : UInt32) :
      '\n' ∉ padLeft '0' 5 (upperHex v.toNat) :=
    newline_not_mem_of_numeral fun _ =>
      isNumeral_padLeft fun _ => isNumeral_upperHex
  have reason (dump : CrashDump) :=
    newline_not_mem_annotated (newline_not_mem_decimal dump.reasonTag.toNat)
      (newline_not_mem_reasonName tag dump.reasonTag)
  have cause (dump : CrashDump) :=
    newline_not_mem_annotated (newline_not_mem_word dump.mcause)
      (newline_not_mem_mcauseDecode dump.mcause)
  rw [printHead_append, printHead_append] at same
  replace same := List.append_cancel_left (List.append_cancel_left same)
  obtain ⟨offsets, same⟩ := line_inj (address _) (address _) same
  obtain ⟨timestamps, same⟩ := line_inj (newline_not_mem_decimal _)
    (newline_not_mem_decimal _) same
  obtain ⟨reasons, same⟩ := line_inj (reason dump) (reason dump') same
  obtain ⟨counts, same⟩ := line_inj (newline_not_mem_decimal _)
    (newline_not_mem_decimal _) same
  obtain ⟨causes, same⟩ := line_inj (cause dump) (cause dump') same
  obtain ⟨mepcs, same⟩ := line_inj (newline_not_mem_word _)
    (newline_not_mem_word _) same
  obtain ⟨mtvals, same⟩ := line_inj (newline_not_mem_word _)
    (newline_not_mem_word _) same
  obtain ⟨mstatuses, same⟩ := line_inj (newline_not_mem_word _)
    (newline_not_mem_word _) same
  have tags := annotated_inj (fun _ => isNumeral_decimal)
    (fun _ => isNumeral_decimal) reasons
  have words := annotated_inj (fun _ => isNumeral_word)
    (fun _ => isNumeral_word) causes
  refine ⟨UInt32.toNat_inj.mp (padded_injective offsets), ?_, same⟩
  exact
    { timestampUs := decimal_injective timestamps
      reasonTag := UInt32.toNat_inj.mp (decimal_injective tags)
      bootCount := decimal_injective counts
      mcause := word_injective words
      mepc := word_injective mepcs
      mtval := word_injective mtvals
      mstatus := word_injective mstatuses }

/-- A message ends with its line, and a dump without one has no such
line. -/
theorem printMessage_inj {message message' rest rest' : Text}
    (clean : '\n' ∉ message) (clean' : '\n' ∉ message')
    (same : printMessage message ++
        (line "  registers (x1..x31):".toList [] ++ rest) =
      printMessage message' ++
        (line "  registers (x1..x31):".toList [] ++ rest')) :
    message = message' ∧ rest = rest' := by
  have quoted {text : Text} (plain : '\n' ∉ text) :
      '\n' ∉ text ++ "\"".toList := by
    rw [List.mem_append, not_or]
    exact ⟨plain, by decide⟩
  cases message with
  | nil =>
      cases message' with
      | nil => exact ⟨rfl, List.append_cancel_left same⟩
      | cons c message' =>
          have third : some 'r' = some 'm' :=
            congrArg (fun text => text[2]?) same
          exact absurd third (by decide)
  | cons c message =>
      cases message' with
      | nil =>
          have third : some 'm' = some 'r' :=
            congrArg (fun text => text[2]?) same
          exact absurd third (by decide)
      | cons c' message' =>
          obtain ⟨messages, same⟩ := line_inj (quoted clean) (quoted clean')
            same
          exact ⟨List.append_cancel_right messages,
            List.append_cancel_left same⟩

theorem length_printRegister (regs regs' : Vector UInt32 31) (i : Nat) :
    (printRegister regs i).length = (printRegister regs' i).length := by
  simp only [printRegister, List.length_append, length_word]

theorem length_printRegisters (regs regs' : Vector UInt32 31) :
    (printRegisters regs).length = (printRegisters regs').length := by
  have lines (start : Nat) : (printRegisterLine regs start).length =
      (printRegisterLine regs' start).length := by
    simp only [printRegisterLine, List.length_append, List.length_flatMap,
      length_printRegister regs regs']
  simp only [printRegisters, List.length_flatMap, lines]

theorem printRegisters_inj {regs regs' : Vector UInt32 31}
    {rest rest' : Text}
    (same : printRegisters regs ++ rest = printRegisters regs' ++ rest') :
    regs = regs' ∧ rest = rest' := by
  obtain ⟨texts, behind⟩ := List.append_inj same
    (length_printRegisters regs regs')
  have words := congrArg readRegisters texts
  rw [readRegisters_printRegisters, readRegisters_printRegisters] at words
  have injective : Function.Injective UInt32.toNat :=
    fun _ _ equal => UInt32.toNat_inj.mp equal
  exact ⟨Vector.toList_inj.mp (List.map_injective_iff.mpr injective words),
    behind⟩

theorem printTail_inj {used used' : List UInt8} {rest : Text}
    (same : printTail used ++ rest = printTail used' ++ rest) :
    used.length = used'.length ∧
      printEscapedBytes used = printEscapedBytes used' := by
  have counted (n : Nat) : '\n' ∉ decimal n ++ " bytes".toList := by
    rw [List.mem_append, not_or]
    exact ⟨newline_not_mem_decimal n, by decide⟩
  rw [printTail, List.append_assoc, printTail, List.append_assoc] at same
  obtain ⟨counts, same⟩ := line_inj (counted _) (counted _) same
  have lengths := decimal_injective (List.append_cancel_right counts)
  refine ⟨lengths, ?_⟩
  cases used with
  | nil =>
      cases used' with
      | nil => rfl
      | cons b used' => cases lengths
  | cons b used =>
      cases used' with
      | nil => cases lengths
      | cons b' used' =>
          have texts := List.append_cancel_right same
          simp only [printTailText, List.isEmpty_cons, Bool.false_eq_true,
            if_false, List.append_assoc, List.append_cancel_left_eq] at texts
          exact List.append_cancel_right texts

/-- The text of a dump determines the dump, down to the bytes of the tail,
of which it determines what is printed of them.  Only the message is printed
as it is, so it must not end its line. -/
theorem printDump_injective (tag : CrashReason → UInt32)
    {dump dump' : CrashDump} {offset offset' : UInt32}
    (clean : '\n' ∉ dump.message) (clean' : '\n' ∉ dump'.message)
    (same : printDump tag dump offset = printDump tag dump' offset') :
    offset = offset' ∧ { dump with uartTail := dump'.uartTail } = dump' ∧
      dump.uartTail.length = dump'.uartTail.length ∧
      printEscapedBytes dump.uartTail = printEscapedBytes dump'.uartTail := by
  have parts (dump : CrashDump) (offset : UInt32) :
      printDump tag dump offset =
        printHead tag dump offset ++ (printMessage dump.message ++
          (line "  registers (x1..x31):".toList [] ++
            (printRegisters dump.registers ++
              (printTail dump.uartTail ++ printFooter offset)))) := by
    simp only [printDump, List.append_assoc]
  rw [parts, parts] at same
  obtain ⟨rfl, head, same⟩ := printHead_inj same
  obtain ⟨message, same⟩ := printMessage_inj clean clean' same
  obtain ⟨registers, same⟩ := printRegisters_inj same
  obtain ⟨lengths, tails⟩ := printTail_inj same
  refine ⟨rfl, ?_, lengths, tails⟩
  exact CrashDump.ext head.timestampUs head.reasonTag head.bootCount
    head.mcause head.mepc head.mtval head.mstatus message registers rfl

def sampleDump (uartTail : List UInt8) : CrashDump :=
  { timestampUs := 0
    reasonTag := 1
    bootCount := 0
    mcause := 0x80000007
    mepc := 0x4FF50000
    mtval := 0
    mstatus := 0x1800
    message := "halted".toList
    registers := Vector.replicate 31 0
    uartTail := uartTail }

/-- A byte that is escaped, and the four characters of its escape: the texts
of the two dumps are the same. -/
theorem printDump_injective_sample :
    let dump := sampleDump [0x80, 13, 13, 13]
    let dump' := sampleDump [0x5C, 0x78, 0x38, 0x30]
    { dump with uartTail := dump'.uartTail } = dump' ∧
      dump.uartTail.length = dump'.uartTail.length ∧
      printEscapedBytes dump.uartTail =
        printEscapedBytes dump'.uartTail := by
  intro dump dump'
  have tails : printTail [0x80, 13, 13, 13] =
      printTail [0x5C, 0x78, 0x38, 0x30] := by decide
  have same : printDump (fun _ => 1) dump 0x10000 =
      printDump (fun _ => 1) dump' 0x10000 := by
    simp only [printDump, dump, dump', sampleDump, tails]
    rfl
  exact (printDump_injective (fun _ => 1) (by decide) (by decide) same).2

end CrashdumpReport

end MiniBootloader
