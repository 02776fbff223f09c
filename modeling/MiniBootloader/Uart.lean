import Mathlib.Algebra.Ring.Nat
import MiniBootloader.Library.PolledQueue

/-!
# The UART console

`Uart0` reads the fill level of the transmit FIFO from the status register
and stores one byte at a time, while the UART sends bytes on its own.  The
two run independently, so a run is a list of moves of either side in any
order.  Every byte is copied to `UART_RING`, whose tail the panic handler
attaches to a crash dump.
-/

namespace MiniBootloader

open PolledQueue

namespace Uart

/-! ## The registers -/

def txfifoCntShift : UInt32 := 16

def txfifoCntMask : UInt32 := 0xFF <<< txfifoCntShift

def txfifoCapacity : UInt32 := 128

/-- The status register: the fill level of the FIFO in bits 16 to 23, and
whatever the UART reports in the other bits. -/
def statusReg (low : UInt16) (high : UInt8) (fifo : List UInt8) : UInt32 :=
  UInt32.ofNat (low.toNat + 65536 * fifo.length + 16777216 * high.toNat)

/-- `txfifo_count`, of the value read from the status register. -/
def txfifoCount (status : UInt32) : UInt32 :=
  (status &&& txfifoCntMask) >>> txfifoCntShift

/-- The count is read exactly, whatever the other bits are. -/
theorem toNat_txfifoCount (low : UInt16) (high : UInt8)
    {fifo : List UInt8} (short : fifo.length ≤ 255) :
    (txfifoCount (statusReg low high fifo)).toNat = fifo.length := by
  have lowBound := low.toNat_lt
  have highBound := high.toNat_lt
  have status : (statusReg low high fifo).toNat =
      low.toNat + 65536 * fifo.length + 16777216 * high.toNat := by
    rw [statusReg, UInt32.toNat_ofNat', Nat.mod_eq_of_lt (by omega)]
  have mask : txfifoCntMask.toNat >>> 16 = 2 ^ 8 - 1 := by decide
  have count : (txfifoCount (statusReg low high fifo)).toNat =
      ((statusReg low high fifo).toNat &&& txfifoCntMask.toNat) >>> 16 := rfl
  rw [count, Nat.shiftRight_and_distrib, mask,
    Nat.and_two_pow_sub_one_eq_mod, Nat.shiftRight_eq_div_pow, status]
  omega

/-! ## What the CPU executes -/

/-- `write_byte`, a push to `UART_RING`, or `drain_uart`. -/
abbrev Command := PolledQueue.Command UInt8

/-- `write_str`: a carriage return in front of every newline, and a copy of
each byte to the ring after it is sent. -/
def writeStr (s : List UInt8) : List Command :=
  s.flatMap fun b =>
    (if b = 10 then [.put 13, .note 13] else []) ++ [.put b, .note b]

/-- What the boot code does with the console. -/
inductive Call where
  | print (s : List UInt8)
  | drainUart
  deriving DecidableEq, Repr

def Call.commands : Call → List Command
  | .print s => writeStr s
  | .drainUart => [.flush]

def program (calls : List Call) : List Command :=
  calls.flatMap Call.commands

/-- What a call prints. -/
def Call.text : Call → List UInt8
  | .print s => s
  | .drainUart => []

def textOf (calls : List Call) : List UInt8 :=
  calls.flatMap Call.text

/-- The bytes that go over the wire for a text. -/
def crlf (s : List UInt8) : List UInt8 :=
  s.flatMap fun b => if b = 10 then [13, 10] else [b]

/-- The reader of the wire drops a carriage return in front of a newline. -/
def uncrlf : List UInt8 → List UInt8
  | [] => []
  | [b] => [b]
  | b :: next :: rest =>
      if b = 13 ∧ next = 10 then uncrlf (next :: rest)
      else b :: uncrlf (next :: rest)

/-! ## Texts and commands -/

@[simp] theorem crlf_cons (b : UInt8) (s : List UInt8) :
    crlf (b :: s) = (if b = 10 then [13, 10] else [b]) ++ crlf s :=
  List.flatMap_cons

theorem crlf_append (first second : List UInt8) :
    crlf (first ++ second) = crlf first ++ crlf second :=
  List.flatMap_append

theorem uncrlf_cons {b : UInt8} {rest : List UInt8}
    (kept : ¬ (b = 13 ∧ rest.head? = some 10)) :
    uncrlf (b :: rest) = b :: uncrlf rest := by
  cases rest with
  | nil => rfl
  | cons next rest =>
      rw [List.head?_cons, Option.some.injEq] at kept
      rw [uncrlf, if_neg kept]

/-- A newline on the wire never comes first. -/
theorem head_crlf_ne (s : List UInt8) : (crlf s).head? ≠ some 10 := by
  cases s with
  | nil => simp [crlf]
  | cons b s =>
      rw [crlf_cons]
      by_cases newline : b = 10
      · simp [newline]
      · simp [newline]

/-- Every text is read back from the wire. -/
theorem uncrlf_crlf (s : List UInt8) : uncrlf (crlf s) = s := by
  induction s with
  | nil => rfl
  | cons b s ih =>
      have plain (first : UInt8) :
          uncrlf (first :: crlf s) = first :: uncrlf (crlf s) :=
        uncrlf_cons fun both => head_crlf_ne s both.2
      rw [crlf_cons]
      by_cases newline : b = 10
      · have pair : uncrlf (13 :: 10 :: crlf s) =
            uncrlf (10 :: crlf s) := by
          rw [uncrlf, if_pos ⟨rfl, rfl⟩]
        rw [if_pos newline, newline, List.cons_append, List.singleton_append,
          pair, plain, ih]
      · rw [if_neg newline, List.singleton_append, plain, ih]

theorem writeStr_cons (b : UInt8) (s : List UInt8) :
    writeStr (b :: s) =
      ((if b = 10 then [.put 13, .note 13] else []) ++ [.put b, .note b]) ++
        writeStr s :=
  List.flatMap_cons

/-- The bytes sent and the bytes copied to the ring are the same. -/
theorem sent_writeStr (s : List UInt8) :
    puts (writeStr s) = crlf s ∧ notes (writeStr s) = crlf s := by
  induction s with
  | nil => exact ⟨rfl, rfl⟩
  | cons b s ih =>
      rw [writeStr_cons, crlf_cons, puts_append, notes_append, ih.1, ih.2]
      by_cases newline : b = 10
      · subst newline
        exact ⟨rfl, rfl⟩
      · simp only [newline, if_false]
        exact ⟨rfl, rfl⟩

theorem teed_writeStr (s : List UInt8) : Teed (writeStr s) := by
  induction s with
  | nil => exact .nil
  | cons b s ih =>
      rw [writeStr_cons]
      apply Teed.append _ ih
      by_cases newline : b = 10
      · rw [if_pos newline]
        exact .put 13 (.put b .nil)
      · rw [if_neg newline]
        exact .put b .nil

theorem workLeft_writeStr (s : List UInt8) :
    workLeft (writeStr s) = 4 * (crlf s).length := by
  induction s with
  | nil => rfl
  | cons b s ih =>
      rw [writeStr_cons, crlf_cons, workLeft_append, ih,
        List.length_append, Nat.mul_add]
      by_cases newline : b = 10
      · rw [if_pos newline, if_pos newline]
        rfl
      · rw [if_neg newline, if_neg newline]
        rfl

theorem program_cons (call : Call) (calls : List Call) :
    program (call :: calls) = call.commands ++ program calls :=
  List.flatMap_cons

theorem program_append (first second : List Call) :
    program (first ++ second) = program first ++ program second :=
  List.flatMap_append

theorem textOf_cons (call : Call) (calls : List Call) :
    textOf (call :: calls) = call.text ++ textOf calls :=
  List.flatMap_cons

theorem textOf_append (first second : List Call) :
    textOf (first ++ second) = textOf first ++ textOf second :=
  List.flatMap_append

theorem sent_program (calls : List Call) :
    puts (program calls) = crlf (textOf calls) ∧
      notes (program calls) = crlf (textOf calls) := by
  induction calls with
  | nil => exact ⟨rfl, rfl⟩
  | cons call calls ih =>
      rw [program_cons, textOf_cons, puts_append, notes_append, crlf_append,
        ih.1, ih.2]
      cases call with
      | print s =>
          obtain ⟨put, noted⟩ := sent_writeStr s
          simp only [Call.commands, Call.text, put, noted, and_self]
      | drainUart => exact ⟨rfl, rfl⟩

theorem teed_program (calls : List Call) : Teed (program calls) := by
  induction calls with
  | nil => exact .nil
  | cons call calls ih =>
      rw [program_cons]
      apply Teed.append _ ih
      cases call with
      | print s => exact teed_writeStr s
      | drainUart => exact .flush .nil

/-- Four accesses and sends for a byte on the wire, one for a wait. -/
theorem workLeft_program (calls : List Call) :
    workLeft (program calls) =
      4 * (crlf (textOf calls)).length + calls.count .drainUart := by
  induction calls with
  | nil => rfl
  | cons call calls ih =>
      rw [program_cons, textOf_cons, workLeft_append, ih, crlf_append,
        List.length_append, List.count_cons]
      cases call with
      | print s =>
          have work := workLeft_writeStr s
          simp only [Call.commands, Call.text, work]
          simp
          omega
      | drainUart =>
          have work : workLeft (Call.drainUart).commands = 1 := rfl
          rw [work]
          simp [Call.text, crlf]
          omega

end Uart

/-! ## The console -/

/-- What the code uses of `p4_crashdump::UartRing<256>`; the copy is cut to
the bytes it returns. -/
structure UartRing where
  State : Type
  new : State
  push : State → UInt8 → State
  copyChronological : State → List UInt8

/-- The ring holds the last 256 bytes pushed. -/
def UartRing.KeepsLast (ring : UartRing) : Prop :=
  ∀ bytes : List UInt8,
    ring.copyChronological (bytes.foldl ring.push ring.new) =
      bytes.drop (bytes.length - 256)

/-- The UART, its FIFO and the ring, with the commands the CPU still has to
execute. -/
structure Console (ring : UartRing) where
  todo : List Uart.Command
  /-- The loop of `write_byte` has seen room and the store is next. -/
  ready : Bool
  fifo : List UInt8
  wire : List UInt8
  ring : ring.State

namespace Console

variable {ring : UartRing}

/-- One access of the CPU, which finds `low` and `high` around the count in
the status register, or one byte sent by the UART. -/
inductive Move where
  | cpu (low : UInt16) (high : UInt8)
  | send

def Move.agent : Move → Agent
  | .cpu _ _ => .writer
  | .send => .reader

/-- A store to the FIFO register: its low byte is queued, or lost where the
FIFO is full. -/
def storeFifo (fifo : List UInt8) (word : UInt32) : List UInt8 :=
  if fifo.length < Uart.txfifoCapacity.toNat then fifo ++ [word.toUInt8]
  else fifo

def stepCpu (low : UInt16) (high : UInt8) (console : Console ring) :
    Console ring :=
  let count := Uart.txfifoCount (Uart.statusReg low high console.fifo)
  match console.todo with
  | [] => console
  | .put byte :: rest =>
      if console.ready then
        { console with
          todo := rest
          ready := false
          fifo := storeFifo console.fifo byte.toUInt32 }
      else if count ≥ Uart.txfifoCapacity then
        console
      else
        { console with ready := true }
  | .note byte :: rest =>
      { console with todo := rest, ring := ring.push console.ring byte }
  | .flush :: rest =>
      if count > 0 then console else { console with todo := rest }

def stepSend (console : Console ring) : Console ring :=
  match console.fifo with
  | [] => console
  | byte :: rest =>
      { console with fifo := rest, wire := console.wire ++ [byte] }

def step (console : Console ring) : Move → Console ring
  | .cpu low high => stepCpu low high console
  | .send => stepSend console

def run (console : Console ring) (moves : List Move) : Console ring :=
  moves.foldl step console

/-- The console at reset, with the calls the boot code will make. -/
def start (ring : UartRing) (calls : List Uart.Call) : Console ring :=
  { todo := Uart.program calls
    ready := false
    fifo := []
    wire := []
    ring := ring.new }

/-! ## The console as a polled queue -/

/-- The console does what the polled queue does, and its ring has seen what
the queue's writer noted. -/
structure Follows (console : Console ring) (state : State UInt8) : Prop where
  todo : console.todo = state.todo
  ready : console.ready = state.ready
  fifo : console.fifo = state.queue
  wire : console.wire = state.taken
  ring : console.ring = state.noted.foldl ring.push ring.new

theorem follows_start (ring : UartRing) (calls : List Uart.Call) :
    Follows (start ring calls) (PolledQueue.start (Uart.program calls)) :=
  ⟨rfl, rfl, rfl, rfl, rfl⟩

theorem storeFifo_eq (fifo : List UInt8) (byte : UInt8) :
    storeFifo fifo byte.toUInt32 = store 128 fifo byte := by
  have capacity : Uart.txfifoCapacity.toNat = 128 := rfl
  rw [storeFifo, store, capacity, UInt8.toUInt8_toUInt32]

section Steps

variable {console : Console ring} {state : State UInt8}

/-- Reading the status register is asking the queue for its length. -/
theorem Follows.stepCpu (follows : Follows console state)
    (bounded : state.queue.length ≤ 128) (low : UInt16) (high : UInt8) :
    Follows (stepCpu low high console) (stepWriter 128 state) := by
  obtain ⟨todo, ready, fifo, wire, noted⟩ := follows
  have count : (Uart.txfifoCount
      (Uart.statusReg low high console.fifo)).toNat =
        state.queue.length := by
    rw [Uart.toNat_txfifoCount low high (by rw [fifo]; omega), fifo]
  have full : Uart.txfifoCount (Uart.statusReg low high console.fifo) ≥
      Uart.txfifoCapacity ↔ ¬ state.queue.length < 128 := by
    rw [ge_iff_le, UInt32.le_iff_toNat_le, count, Nat.not_lt]
    rfl
  have used : Uart.txfifoCount (Uart.statusReg low high console.fifo) > 0 ↔
      ¬ state.queue.length = 0 := by
    rw [gt_iff_lt, UInt32.lt_iff_toNat_lt, count]
    exact Nat.pos_iff_ne_zero
  rw [Console.stepCpu, stepWriter, todo]
  cases next : state.todo with
  | nil => exact ⟨todo, ready, fifo, wire, noted⟩
  | cons command rest =>
      cases command with
      | put byte =>
          dsimp only
          rw [ready]
          split
          · refine ⟨rfl, rfl, ?_, wire, noted⟩
            rw [storeFifo_eq, fifo]
          · by_cases free : state.queue.length < 128
            · rw [if_neg (fun shut => full.mp shut free), if_pos free]
              exact ⟨rfl, rfl, fifo, wire, noted⟩
            · rw [if_pos (full.mpr free), if_neg free]
              exact ⟨todo, ready, fifo, wire, noted⟩
      | note byte =>
          refine ⟨rfl, ready, fifo, wire, ?_⟩
          rw [noted, List.foldl_concat]
      | flush =>
          dsimp only
          by_cases empty : state.queue.length = 0
          · rw [if_neg (fun busy => used.mp busy empty), if_pos empty]
            exact ⟨rfl, ready, fifo, wire, noted⟩
          · rw [if_pos (used.mpr empty), if_neg empty]
            exact ⟨todo, ready, fifo, wire, noted⟩

theorem Follows.stepSend (follows : Follows console state) :
    Follows (stepSend console) (stepReader state) := by
  obtain ⟨todo, ready, fifo, wire, noted⟩ := follows
  rw [Console.stepSend, stepReader, fifo]
  cases queued : state.queue with
  | nil => exact ⟨todo, ready, fifo, wire, noted⟩
  | cons byte rest =>
      refine ⟨todo, ready, rfl, ?_, noted⟩
      rw [wire]

end Steps

/-- A run of the console is a run of the queue with the same agents. -/
theorem follows_run (ring : UartRing) (calls : List Uart.Call)
    (moves : List Move) :
    Follows (run (start ring calls) moves)
      (PolledQueue.run 128 (PolledQueue.start (Uart.program calls))
        (moves.map Move.agent)) := by
  induction moves using List.reverseRecOn with
  | nil => exact follows_start ring calls
  | append_singleton moves move ih =>
      obtain ⟨done, _, reached⟩ := reached_run 128 (Uart.program calls)
        (moves.map Move.agent)
      have console : run (start ring calls) (moves ++ [move]) =
          step (run (start ring calls) moves) move :=
        List.foldl_concat ..
      rw [console, List.map_append, List.map_singleton, PolledQueue.run,
        List.foldl_concat]
      cases move with
      | cpu low high => exact ih.stepCpu reached.bounded low high
      | send => exact ih.stepSend

/-- The tail the panic handler reads from `UART_RING`. -/
def panicTail (console : Console ring) : List UInt8 :=
  ring.copyChronological console.ring

/-! ## What is sent -/

section Sent

variable (ring : UartRing) (calls : List Uart.Call) (moves : List Move)

theorem prefix_of_run :
    (run (start ring calls) moves).wire ++
        (run (start ring calls) moves).fifo <+:
      Uart.crlf (Uart.textOf calls) := by
  have follows := follows_run ring calls moves
  obtain ⟨done, split, reached⟩ := reached_run 128 (Uart.program calls)
    (moves.map Move.agent)
  rw [follows.wire, follows.fifo, reached.kept,
    ← (Uart.sent_program calls).1, split, puts_append]
  exact List.prefix_append _ _

/-- A wait that is over has what was printed in front of it sent. -/
theorem sent_of_drained {first rest : List Uart.Call}
    (order : calls = first ++ .drainUart :: rest)
    (past : (run (start ring calls) moves).todo <:+ Uart.program rest) :
    Uart.crlf (Uart.textOf first) <+:
      (run (start ring calls) moves).wire := by
  have follows := follows_run ring calls moves
  obtain ⟨done, split, reached⟩ := reached_run 128 (Uart.program calls)
    (moves.map Move.agent)
  rw [← follows.todo] at split
  obtain ⟨middle, behind⟩ := past
  have whole : Uart.program calls =
      (Uart.program first ++ .flush :: middle) ++
        (run (start ring calls) moves).todo := by
    rw [List.append_assoc, List.cons_append, behind, order,
      Uart.program_append, Uart.program_cons]
    rfl
  have passed := reached.flushed _ _
    (List.append_cancel_right (split.symm.trans whole))
  rw [(Uart.sent_program first).1, ← follows.wire] at passed
  exact passed

/-- With nothing left to do and nothing queued, all is sent. -/
theorem wire_of_finished
    (finished : (run (start ring calls) moves).todo = [])
    (empty : (run (start ring calls) moves).fifo = []) :
    (run (start ring calls) moves).wire =
      Uart.crlf (Uart.textOf calls) := by
  have follows := follows_run ring calls moves
  obtain ⟨done, split, reached⟩ := reached_run 128 (Uart.program calls)
    (moves.map Move.agent)
  rw [← follows.todo, finished, List.append_nil] at split
  have kept := reached.kept
  rw [← follows.wire, ← follows.fifo, empty, List.append_nil, ← split,
    (Uart.sent_program calls).1] at kept
  exact kept

/-- A panic finds the end of what was sent, without at most the last byte. -/
theorem exists_panicTail {ring : UartRing} (keeps : ring.KeepsLast)
    (calls : List Uart.Call) (moves : List Move) :
    ∃ sent late,
      (run (start ring calls) moves).wire ++
          (run (start ring calls) moves).fifo = sent ++ late ∧
        late.length ≤ 1 ∧
        (run (start ring calls) moves).panicTail =
          sent.drop (sent.length - 256) := by
  have follows := follows_run ring calls moves
  obtain ⟨done, split, reached⟩ := reached_run 128 (Uart.program calls)
    (moves.map Move.agent)
  rw [← follows.todo] at split
  have kept := reached.kept
  rw [← follows.wire, ← follows.fifo] at kept
  obtain ⟨late, short, lag⟩ := (Uart.teed_program calls).notes_of_split split
  refine ⟨notes done, late, ?_, short, ?_⟩
  · rw [kept, lag]
  · have pushed := follows.ring
    rw [reached.noted] at pushed
    rw [panicTail, pushed]
    exact keeps (notes done)

end Sent

/-- In every state of every run the bytes sent and queued are the first of
the text, in order and without loss; a wait that is over has them sent; and a
panic finds the end of what was sent, without at most the last byte. -/
theorem console_keeps_text {ring : UartRing} (keeps : ring.KeepsLast)
    (calls : List Uart.Call) (moves : List Move) :
    let console := run (start ring calls) moves
    console.fifo.length ≤ 128 ∧
      console.wire ++ console.fifo <+: Uart.crlf (Uart.textOf calls) ∧
      (∀ first rest, calls = first ++ .drainUart :: rest →
        console.todo <:+ Uart.program rest →
        Uart.crlf (Uart.textOf first) <+: console.wire) ∧
      ∃ sent late, console.wire ++ console.fifo = sent ++ late ∧
        late.length ≤ 1 ∧
        console.panicTail = sent.drop (sent.length - 256) := by
  intro console
  refine ⟨?_, prefix_of_run ring calls moves, ?_,
    exists_panicTail keeps calls moves⟩
  · have follows : Follows console _ := follows_run ring calls moves
    obtain ⟨done, split, reached⟩ := reached_run 128 (Uart.program calls)
      (moves.map Move.agent)
    rw [follows.fifo]
    exact reached.bounded
  · intro first rest order past
    exact sent_of_drained ring calls moves order past

/-- A ring that keeps every byte and copies the last 256. -/
def unboundedRing : UartRing :=
  { State := List UInt8
    new := []
    push := fun bytes byte => bytes ++ [byte]
    copyChronological := fun bytes => bytes.drop (bytes.length - 256) }

theorem keepsLast_unboundedRing : unboundedRing.KeepsLast := by
  intro bytes
  have kept : bytes.foldl unboundedRing.push unboundedRing.new = bytes := by
    induction bytes using List.reverseRecOn with
    | nil => rfl
    | append_singleton bytes byte ih =>
        rw [List.foldl_concat, ih]
        rfl
  rw [kept]
  simp only [unboundedRing]

/-- The CPU has sent a carriage return and waits to copy it. -/
theorem console_keeps_text_sample :
    let console := run (start unboundedRing [.print [10]])
      [.cpu 0 0, .cpu 7 255, .send]
    console.wire ++ console.fifo <+: [13, 10] ∧
      ∃ sent late, console.wire ++ console.fifo = sent ++ late ∧
        late.length ≤ 1 ∧
        console.panicTail = sent.drop (sent.length - 256) := by
  have text : Uart.crlf (Uart.textOf [.print [10]]) = [13, 10] := rfl
  have kept := console_keeps_text keepsLast_unboundedRing [.print [10]]
    [.cpu 0 0, .cpu 7 255, .send]
  rw [text] at kept
  exact ⟨kept.2.1, kept.2.2.2⟩

/-- In a round both the CPU and the UART move. -/
def Round (moves : List Move) : Prop :=
  (∃ low high, Move.cpu low high ∈ moves) ∧ Move.send ∈ moves

theorem Round.agents {moves : List Move} (round : Round moves) :
    PolledQueue.Round (moves.map Move.agent) := by
  obtain ⟨⟨low, high, moved⟩, sent⟩ := round
  exact ⟨List.mem_map.mpr ⟨_, moved, rfl⟩, List.mem_map.mpr ⟨_, sent, rfl⟩⟩

/-- After four rounds for each byte of the wire and one for each wait nothing
is left to do. -/
theorem settled_of_rounds (ring : UartRing) (calls : List Uart.Call)
    {rounds : List (List Move)} (both : ∀ round ∈ rounds, Round round)
    (enough : 4 * (Uart.crlf (Uart.textOf calls)).length +
      calls.count .drainUart ≤ rounds.length) :
    (run (start ring calls) rounds.flatten).todo = [] ∧
      (run (start ring calls) rounds.flatten).fifo = [] ∧
      (run (start ring calls) rounds.flatten).ring =
        (Uart.crlf (Uart.textOf calls)).foldl ring.push ring.new := by
  have follows := follows_run ring calls rounds.flatten
  rw [List.map_flatten] at follows
  have agents : ∀ round ∈ rounds.map (List.map Move.agent),
      PolledQueue.Round round := by
    intro round member
    obtain ⟨moves, inRounds, rfl⟩ := List.mem_map.mp member
    exact (both moves inRounds).agents
  have work : workLeft (Uart.program calls) ≤
      (rounds.map (List.map Move.agent)).length := by
    rw [Uart.workLeft_program, List.length_map]
    exact enough
  obtain ⟨finished, empty, _, noted⟩ :=
    run_rounds_complete (by decide : 0 < 128) (Uart.program calls) agents
      work
  refine ⟨?_, ?_, ?_⟩
  · rw [follows.todo, finished]
  · rw [follows.fifo, empty]
  · rw [follows.ring, noted, (Uart.sent_program calls).2]

/-- The console is never stuck: after four rounds for each byte of the wire
and one for each wait, all calls have returned, everything is sent, and the
text can be read back. -/
theorem console_completes (ring : UartRing) (calls : List Uart.Call)
    (rounds : List (List Move)) (both : ∀ round ∈ rounds, Round round)
    (enough : 4 * (Uart.crlf (Uart.textOf calls)).length +
      calls.count .drainUart ≤ rounds.length) :
    let console := run (start ring calls) rounds.flatten
    console.todo = [] ∧ console.fifo = [] ∧
      console.wire = Uart.crlf (Uart.textOf calls) ∧
      Uart.uncrlf console.wire = Uart.textOf calls ∧
      console.ring =
        (Uart.crlf (Uart.textOf calls)).foldl ring.push ring.new := by
  intro console
  obtain ⟨finished, empty, copied⟩ :=
    settled_of_rounds ring calls both enough
  have wire : console.wire = Uart.crlf (Uart.textOf calls) :=
    wire_of_finished ring calls rounds.flatten finished empty
  refine ⟨finished, empty, wire, ?_, copied⟩
  rw [wire, Uart.uncrlf_crlf]

theorem console_completes_sample :
    let console := run (start unboundedRing [.print [10], .drainUart])
      (List.replicate 9 [.send, .cpu 0 0]).flatten
    console.todo = [] ∧ console.wire = [13, 10] := by
  intro console
  have both : ∀ round ∈ List.replicate 9 [Move.send, .cpu 0 0],
      Round round := by
    intro round member
    rw [List.eq_of_mem_replicate member]
    exact ⟨⟨0, 0, by simp⟩, by simp⟩
  obtain ⟨finished, _, wire, _⟩ := console_completes unboundedRing
    [.print [10], .drainUart] (List.replicate 9 [.send, .cpu 0 0]) both
    (by decide)
  exact ⟨finished, wire⟩

end Console

end MiniBootloader
