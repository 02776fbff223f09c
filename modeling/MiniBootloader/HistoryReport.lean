import MiniBootloader.Library.BoundedLog
import MiniBootloader.PanicReport

/-!
# The boot history on the console

Every boot adds its reason to the boot history and prints the newest entries.
So the console of one boot tells what the boots before it were for, as long
as the history in flash is left to them.
-/

namespace MiniBootloader

open BoundedLog Numerals Words

/-- What the boot code relies on: entries are kept in the order they were
appended, at least as many as are printed, and a stored history is loaded
again from its sector. -/
structure P4BootHistory.KeepsRecent (crate : P4BootHistory)
    (text : HistoryText crate) (capacity : Nat) : Prop where
  enough : Sequence.printRecentN ≤ capacity
  appended : ∀ history reason, ∃ seq,
    text.iterRecent (crate.append history ⟨0, 0, reason⟩) =
      push capacity (text.iterRecent history)
        ⟨seq, 0, 0, text.reasonTag reason⟩
  counted : ∀ history, text.len history = (text.iterRecent history).length
  sector : ∀ offset flash flash', SameRange offset sectorSize flash flash' →
    crate.loadFromFlashOrEmpty offset flash' =
      crate.loadFromFlashOrEmpty offset flash
  stored : ∀ offset history flash,
    (crate.storeToFlash offset history flash).2 = .ok () →
    crate.loadFromFlashOrEmpty offset
      (crate.storeToFlash offset history flash).1 = history

/-! ## What is printed -/

def appendedLine (recent : List HistoryEntry) : Text :=
  newline ("boot-history: appended seq #".toList ++
    decimal ((recent.head?.map HistoryEntry.seq).getD 0) ++
    " (now ".toList ++ decimal recent.length ++ " entries)".toList)

def recentLine (recent : List HistoryEntry) : Text :=
  newline ("boot-history: last ".toList ++
    decimal (min recent.length Sequence.printRecentN) ++ " of ".toList ++
    decimal recent.length ++ " entries:".toList)

/-- The lines for a history with these entries, the newest first. -/
def recentReport (tag : BootHistory.Reason → UInt32)
    (recent : List HistoryEntry) : Text :=
  appendedLine recent ++ (recentLine recent ++
    (recent.take (min recent.length Sequence.printRecentN)).flatMap
      (Sequence.historyLine tag))

section Boots

variable {P : Platform} (texts : Texts P)

/-- The reason a boot records. -/
def Boot.reason (P : Platform) (boot : Boot) : BootHistory.Reason :=
  if P.dumpPresent boot.flash then .crashRecovery
  else BootHistory.mapCauseToReason boot.cause

/-- The history a boot stores. -/
def Boot.history (P : Platform) (boot : Boot) : P.history.History :=
  P.history.append
    (P.history.loadFromFlashOrEmpty BootHistory.bootlogPartitionOffset
      boot.flash) ⟨0, 0, boot.reason P⟩

/-- The history of a boot cannot be stored. -/
def Boot.logFails (P : Platform) (boot : Boot) : Bool :=
  !(P.history.storeToFlash BootHistory.bootlogPartitionOffset
    (boot.history P) boot.flash).2.isOk

/-- How the reason of a boot is written down. -/
def Boot.tag (boot : Boot) : UInt32 :=
  texts.history.reasonTag (boot.reason P)

/-- The reasons in the history, the newest first. -/
def loggedReasons (flash : Flash) : List UInt32 :=
  (texts.history.iterRecent (P.history.loadFromFlashOrEmpty
    BootHistory.bootlogPartitionOffset flash)).map HistoryEntry.reason

/-- What is printed of the reasons after these boots of a flash, if each of
them stores the history. -/
def lastReasons (boots : List Boot) (flash : Flash) : List UInt32 :=
  ((boots.map (Boot.tag texts)).reverse ++ loggedReasons texts flash).take
    Sequence.printRecentN

/-- A boot that finds the history as the step before left it. -/
structure LoggingBoot (P : Platform) (before : Flash) (boot : Boot)
    (after : Flash) : Prop where
  found : SameRange BootHistory.bootlogPartitionOffset sectorSize before
    boot.flash
  left : after = (main P boot.cause boot.flash).flash

/-- The boot prints the lines for these entries. -/
def PrintsRecent (boot : Boot) (recent : List HistoryEntry) : Prop :=
  ∃ before after, printed (bootSteps texts boot.cause boot.flash) =
    before ++ recentReport texts.history.reasonTag recent ++ after

/-! ## One boot -/

section OneBoot

variable {texts}

theorem printed_printHistory {capacity : Nat}
    (keeps : P.history.KeepsRecent texts.history capacity)
    {history : P.history.History} {recent : List HistoryEntry}
    (entries : texts.history.iterRecent history = recent)
    (nonempty : recent ≠ []) (flash : Flash) :
    printed ((Sequence.printHistory texts history (.ok ()) :
      BootM P Halt Unit).run flash).events =
        recentReport texts.history.reasonTag recent := by
  have total : texts.history.len history = recent.length := by
    rw [keeps.counted, entries]
  have some : min recent.length Sequence.printRecentN ≠ 0 := by
    have positive := List.length_pos_iff.mpr nonempty
    simp only [Sequence.printRecentN]
    omega
  have lines : ((Sequence.printRecent texts history :
      BootM P Halt Unit).run flash).events =
      [.print (recentLine recent), .print
        ((recent.take (min recent.length Sequence.printRecentN)).flatMap
          (Sequence.historyLine texts.history.reasonTag))] := by
    rw [Sequence.printRecent, total, entries, if_neg some]
    rfl
  have steps : ((Sequence.printHistory texts history (.ok ()) :
      BootM P Halt Unit).run flash).events =
      .print (appendedLine recent) ::
        ((Sequence.printRecent texts history :
          BootM P Halt Unit).run flash).events := by
    rw [appendedLine, ← total, ← entries]
    rfl
  rw [steps, lines]
  simp only [printed, List.flatMap_cons, List.flatMap_nil, BootStep.text,
    List.append_nil, recentReport]

/-- An empty history has no newest entries. -/
theorem printed_printHistory_nil {capacity : Nat}
    (keeps : P.history.KeepsRecent texts.history capacity)
    {history : P.history.History}
    (empty : texts.history.iterRecent history = []) (flash : Flash) :
    printed ((Sequence.printHistory texts history (.ok ()) :
      BootM P Halt Unit).run flash).events = appendedLine [] := by
  have total : texts.history.len history = 0 := by
    rw [keeps.counted, empty, List.length_nil]
  have nothing : (Sequence.printRecent texts history :
      BootM P Halt Unit) = pure () := by
    rw [Sequence.printRecent, total]
    rfl
  rw [Sequence.printHistory, nothing, total, empty]
  rfl

/-- A boot prints what recording its reason prints. -/
theorem bootSteps_history (boot : Boot) :
    ∃ before after, bootSteps texts boot.cause boot.flash =
      before ++ (((Sequence.recordHistory texts
        BootHistory.bootlogPartitionOffset (boot.reason P) :
        BootM P Halt Unit).run boot.flash).events ++ after) := by
  have order (rest : Unit → BootM P Halt UInt32) :
      ∃ dump after,
        ((Sequence.reports texts boot.cause >>= rest).run
          boot.flash).events = dump :: (((Sequence.recordHistory texts
            BootHistory.bootlogPartitionOffset (boot.reason P) :
            BootM P Halt Unit).run boot.flash).events ++ after) := by
    rw [Sequence.reports]
    simp only [Effectful.bind_assoc]
    rw [Effectful.run_ask_bind, Effectful.run_ask_bind, Sequence.print,
      Effectful.run_emit_bind]
    obtain ⟨after, events⟩ := Effectful.exists_events_bind
      (Sequence.recordHistory texts BootHistory.bootlogPartitionOffset
        (boot.reason P) : BootM P Halt Unit) _ boot.flash
    exact ⟨_, after, congrArg _ events⟩
  rw [bootSteps, Sequence.run_main, Sequence.afterSetUp, Sequence.print,
    Effectful.run_emit_bind, Sequence.print, Effectful.run_emit_bind]
  obtain ⟨dump, after, steps⟩ := order _
  simp only [Ended.after]
  rw [steps, ← List.append_assoc, ← List.append_assoc, List.append_cons]
  exact ⟨_, after, rfl⟩

theorem stored_of_not_logFails {boot : Boot}
    (stores : boot.logFails P = false) :
    (P.history.storeToFlash BootHistory.bootlogPartitionOffset
      (boot.history P) boot.flash).2 = .ok () := by
  rw [Boot.logFails] at stores
  cases stored : (P.history.storeToFlash BootHistory.bootlogPartitionOffset
      (boot.history P) boot.flash).2 with
  | ok done => rfl
  | error error =>
      rw [stored] at stores
      cases stores

/-- A boot that stores the history prints its newest entries. -/
theorem exists_printsRecent {capacity : Nat}
    (keeps : P.history.KeepsRecent texts.history capacity) {boot : Boot}
    (stores : boot.logFails P = false) :
    ∃ recent, PrintsRecent texts boot recent ∧
      recent.map HistoryEntry.reason =
        push capacity (loggedReasons texts boot.flash)
          (boot.tag texts) := by
  obtain ⟨seq, entries⟩ := keeps.appended
    (P.history.loadFromFlashOrEmpty BootHistory.bootlogPartitionOffset
      boot.flash) (boot.reason P)
  have nonempty : texts.history.iterRecent (boot.history P) ≠ [] := by
    obtain ⟨more, rfl⟩ := Nat.exists_eq_add_of_le' keeps.enough
    rw [Boot.history, entries]
    exact List.cons_ne_nil _ _
  refine ⟨texts.history.iterRecent (boot.history P), ?_, ?_⟩
  · obtain ⟨before, after, steps⟩ := @bootSteps_history P texts boot
    have stored := stored_of_not_logFails stores
    have events : ((Sequence.recordHistory texts
        BootHistory.bootlogPartitionOffset (boot.reason P) :
        BootM P Halt Unit).run boot.flash).events =
        .boot (.report (.bootHistory BootHistory.bootlogPartitionOffset
          ⟨0, 0, boot.reason P⟩
          (P.history.storeToFlash BootHistory.bootlogPartitionOffset
            (boot.history P) boot.flash).2.isOk)) ::
          ((Sequence.printHistory texts (boot.history P)
            (P.history.storeToFlash BootHistory.bootlogPartitionOffset
              (boot.history P) boot.flash).2 :
            BootM P Halt Unit).run (P.history.storeToFlash
              BootHistory.bootlogPartitionOffset (boot.history P)
              boot.flash).1).events := by
      rw [Sequence.recordHistory, Effectful.run_ask_bind]
      rfl
    have text := printed_printHistory keeps rfl nonempty
      (P.history.storeToFlash BootHistory.bootlogPartitionOffset
        (boot.history P) boot.flash).1
    rw [stored] at events
    refine ⟨printed before, printed after, ?_⟩
    rw [steps, printed_append, printed_append, events, ← text,
      List.append_assoc]
    rfl
  · rw [Boot.history, entries, push, push, List.map_take, loggedReasons]
    rfl

end OneBoot

/-! ## Boots in a row -/

section Logs

variable {texts} {capacity : Nat}

theorem loggedReasons_of_sameRange
    (keeps : P.history.KeepsRecent texts.history capacity)
    {flash flash' : Flash}
    (same : SameRange BootHistory.bootlogPartitionOffset sectorSize flash
      flash') :
    loggedReasons texts flash' = loggedReasons texts flash := by
  rw [loggedReasons, keeps.sector _ _ _ same, loggedReasons]

/-- Nothing a boot stores later touches the history. -/
theorem sameRange_log_main (framed : P.Framed) (boot : Boot) :
    SameRange BootHistory.bootlogPartitionOffset sectorSize
      (P.history.storeToFlash BootHistory.bootlogPartitionOffset
        (boot.history P) boot.flash).1
      (main P boot.cause boot.flash).flash := by
  have appended : SameRange BootHistory.bootlogPartitionOffset sectorSize
      (P.history.storeToFlash BootHistory.bootlogPartitionOffset
        (boot.history P) boot.flash).1
      (flashAtPick P boot.cause boot.flash) :=
    (framed.bootstat _ _).sameRange (sparesSector_of_apart (by decide)) _
  rw [main_flash]
  exact appended.trans
    (sameRange_pick framed.ota (sparesSector_of_apart (by decide)) _)

/-- One boot that stores the history. -/
theorem LoggingBoot.pushes
    (keeps : P.history.KeepsRecent texts.history capacity)
    (framed : P.Framed) {before after : Flash} {boot : Boot}
    (step : LoggingBoot P before boot after)
    (stores : boot.logFails P = false) :
    loggedReasons texts after =
      push capacity (loggedReasons texts before) (boot.tag texts) := by
  obtain ⟨seq, entries⟩ := keeps.appended
    (P.history.loadFromFlashOrEmpty BootHistory.bootlogPartitionOffset
      boot.flash) (boot.reason P)
  have stored := keeps.stored _ _ _ (stored_of_not_logFails stores)
  rw [step.left, loggedReasons_of_sameRange keeps
    (sameRange_log_main framed boot), loggedReasons, stored, Boot.history,
    entries, push, push, List.map_take,
    ← loggedReasons_of_sameRange keeps step.found, loggedReasons]
  rfl

/-- Boots that all store the history. -/
theorem loggedReasons_run
    (keeps : P.history.KeepsRecent texts.history capacity)
    (framed : P.Framed) {first last : Flash} {boots : List Boot}
    (run : Run (LoggingBoot P) first boots last)
    (store : ∀ boot ∈ boots, boot.logFails P = false) :
    loggedReasons texts last =
      (boots.map (Boot.tag texts)).foldl (push capacity)
        (loggedReasons texts first) := by
  induction run with
  | nil state => rfl
  | cons here rest ih =>
      obtain ⟨stores, later⟩ := List.forall_mem_cons.mp store
      rw [ih later, here.pushes keeps framed stores]
      rfl

/-- The boot after them prints its own reason in front of theirs. -/
theorem take_push_loggedReasons
    (keeps : P.history.KeepsRecent texts.history capacity)
    (framed : P.Framed) {first before after : Flash} {past : List Boot}
    (run : Run (LoggingBoot P) first past before)
    (store : ∀ boot ∈ past, boot.logFails P = false) {boot : Boot}
    (here : LoggingBoot P before boot after) :
    (push capacity (loggedReasons texts boot.flash) (boot.tag texts)).take
        Sequence.printRecentN = lastReasons texts (past ++ [boot]) first := by
  rw [loggedReasons_of_sameRange keeps here.found,
    loggedReasons_run keeps framed run store, lastReasons, List.map_append,
    List.reverse_append, List.append_assoc]
  exact take_push_of_take keeps.enough (take_foldl_push keeps.enough _ _) _

/-- Whatever boots there were, a boot that stores the history prints the
reasons of the newest of them: of all of them and behind these what the
history held at first, if no boot before failed to store it; and of those
since any boot `lost` that could not store it, behind which stands what
`lost` has left in flash. -/
theorem boots_tell_last_reasons
    (keeps : P.history.KeepsRecent texts.history capacity)
    (framed : P.Framed) {first last : Flash} {boots : List Boot}
    (run : Run (LoggingBoot P) first boots last) :
    ∀ past boot future, boots = past ++ boot :: future →
      boot.logFails P = false →
      ∃ recent, PrintsRecent texts boot recent ∧
        ((∀ earlier ∈ past, earlier.logFails P = false) →
          (recent.map HistoryEntry.reason).take Sequence.printRecentN =
            lastReasons texts (past ++ [boot]) first) ∧
        ∀ earlier lost later, past = earlier ++ lost :: later →
          (∀ boot ∈ later, boot.logFails P = false) →
          (recent.map HistoryEntry.reason).take Sequence.printRecentN =
            lastReasons texts (later ++ [boot])
              (main P lost.cause lost.flash).flash := by
  intro past boot future split stores
  rw [split] at run
  obtain ⟨before, after, toBefore, here, _⟩ := run.split
  obtain ⟨recent, prints, reasons⟩ := exists_printsRecent keeps stores
  refine ⟨recent, prints, ?_, ?_⟩
  · intro store
    rw [reasons]
    exact take_push_loggedReasons keeps framed toBefore store here
  · rintro earlier lost later rfl store
    obtain ⟨_, left, _, atLost, since⟩ := toBefore.split
    rw [reasons, ← atLost.left]
    exact take_push_loggedReasons keeps framed since store here

end Logs

end Boots

/-! ## Reading the lines back -/

section Lines

theorem newline_not_mem_padLeft {width : Nat} {text : Text}
    (clean : '\n' ∉ text) : '\n' ∉ padLeft ' ' width text := by
  apply newline_not_mem_append _ clean
  intro member
  exact absurd (List.eq_of_mem_replicate member) (by decide)

theorem filter_padLeft_decimal (width n : Nat) :
    (padLeft ' ' width (decimal n)).filter (· ≠ ' ') = decimal n := by
  have blanks : (List.replicate (width - (decimal n).length) ' ').filter
      (· ≠ ' ') = [] := by
    apply List.filter_eq_nil_iff.mpr
    intro c member
    rw [List.eq_of_mem_replicate member]
    decide
  rw [padLeft, List.filter_append, blanks, List.nil_append]
  apply List.filter_eq_self.mpr
  intro c member
  apply decide_eq_true
  rintro rfl
  exact absurd (isNumeral_decimal member) (by decide)

/-- A number in a column ends where the label of the next column starts. -/
theorem column_inj {width m n : Nat} {c : Char} {label rest rest' : Text}
    (letter : ¬ IsNumeral c) (visible : c ≠ ' ')
    (same : padLeft ' ' width (decimal m) ++
        ((' ' :: ' ' :: c :: label) ++ rest) =
      padLeft ' ' width (decimal n) ++
        ((' ' :: ' ' :: c :: label) ++ rest')) : m = n ∧ rest = rest' := by
  have clean (k : Nat) :
      c ∉ padLeft ' ' width (decimal k) ++ [' ', ' '] := by
    intro member
    rcases List.mem_append.mp member with padded | blanks
    · rcases List.mem_append.mp padded with blanks | digits
      · exact visible (List.eq_of_mem_replicate blanks)
      · exact letter (isNumeral_decimal digits)
    · exact visible (by simpa using blanks)
  have parts (k : Nat) (behind : Text) :
      padLeft ' ' width (decimal k) ++
          ((' ' :: ' ' :: c :: label) ++ behind) =
        (padLeft ' ' width (decimal k) ++ [' ', ' ']) ++
          c :: (label ++ behind) := by
    simp
  rw [parts, parts] at same
  obtain ⟨columns, behind⟩ := delimited_inj (clean m) (clean n) same
  refine ⟨?_, List.append_cancel_left behind⟩
  have digits := congrArg (List.filter (· ≠ ' '))
    (List.append_cancel_right columns)
  rw [filter_padLeft_decimal, filter_padLeft_decimal] at digits
  exact decimal_injective digits

/-- The line of an entry, without its end. -/
def entryText (tag : BootHistory.Reason → UInt32) (entry : HistoryEntry) :
    Text :=
  "  seq=".toList ++ (padLeft ' ' 5 (decimal entry.seq) ++
    ("  ts_us=".toList ++ (padLeft ' ' 16 (decimal entry.timestampUs) ++
    ("  prev_uptime_us=".toList ++
      (padLeft ' ' 13 (decimal entry.previousUptimeUs) ++
    ("  reason=".toList ++ (decimal entry.reason.toNat ++ " (".toList ++
      Sequence.historyReasonName tag entry.reason ++ ")".toList)))))))

theorem historyLine_eq (tag : BootHistory.Reason → UInt32)
    (entry : HistoryEntry) :
    Sequence.historyLine tag entry = newline (entryText tag entry) := by
  rw [Sequence.historyLine]
  delta entryText
  simp only [List.append_assoc]

theorem newline_not_mem_entryText (tag : BootHistory.Reason → UInt32)
    (entry : HistoryEntry) : '\n' ∉ entryText tag entry := by
  have number (n : Nat) := CrashdumpReport.newline_not_mem_decimal n
  have name : '\n' ∉ Sequence.historyReasonName tag entry.reason := by
    rw [Sequence.historyReasonName]
    repeat' apply CrashdumpReport.newline_not_mem_ite
    all_goals decide
  have reason := CrashdumpReport.newline_not_mem_annotated
    (number entry.reason.toNat) name
  apply newline_not_mem_append (by decide)
  apply newline_not_mem_append (newline_not_mem_padLeft (number _))
  apply newline_not_mem_append (by decide)
  apply newline_not_mem_append (newline_not_mem_padLeft (number _))
  apply newline_not_mem_append (by decide)
  apply newline_not_mem_append (newline_not_mem_padLeft (number _))
  exact newline_not_mem_append (by decide) reason

theorem entryText_injective {tag : BootHistory.Reason → UInt32}
    {entry entry' : HistoryEntry}
    (same : entryText tag entry = entryText tag entry') :
    entry = entry' := by
  obtain ⟨seqs, same⟩ := column_inj (c := 't') (by decide) (by decide)
    (List.append_cancel_left same)
  obtain ⟨timestamps, same⟩ := column_inj (c := 'p') (by decide) (by decide)
    same
  obtain ⟨uptimes, same⟩ := column_inj (c := 'r') (by decide) (by decide)
    same
  have reasons := decimal_injective (CrashdumpReport.annotated_inj
    (fun _ => isNumeral_decimal) (fun _ => isNumeral_decimal) same)
  obtain ⟨seq, timestampUs, previousUptimeUs, reason⟩ := entry
  obtain ⟨seq', timestampUs', previousUptimeUs', reason'⟩ := entry'
  cases seqs
  cases timestamps
  cases uptimes
  cases UInt32.toNat_inj.mp reasons
  rfl

theorem printedLine_inj {text text' rest rest' : Text} (clean : '\n' ∉ text)
    (clean' : '\n' ∉ text')
    (same : newline text ++ rest = newline text' ++ rest') :
    text = text' ∧ rest = rest' := by
  simp only [newline, List.append_assoc, List.singleton_append] at same
  exact delimited_inj clean clean' same

theorem flatMap_historyLine (tag : BootHistory.Reason → UInt32)
    (entries : List HistoryEntry) :
    entries.flatMap (Sequence.historyLine tag) =
      joined (entries.map (entryText tag)) := by
  have lines : Sequence.historyLine tag =
      fun entry => entryText tag entry ++ ['\n'] := by
    funext entry
    rw [historyLine_eq, newline]
  rw [lines, joined, List.flatMap_map]

/-- The first line determines how many entries there are. -/
theorem appendedLine_inj {recent recent' : List HistoryEntry}
    {rest rest' : Text}
    (same : appendedLine recent ++ rest = appendedLine recent' ++ rest') :
    recent.length = recent'.length ∧ rest = rest' := by
  have number (n : Nat) := CrashdumpReport.newline_not_mem_decimal n
  have clean (seq total : Nat) :
      '\n' ∉ "boot-history: appended seq #".toList ++ decimal seq ++
        " (now ".toList ++ decimal total ++ " entries)".toList := by
    apply newline_not_mem_append _ (by decide)
    apply newline_not_mem_append _ (number _)
    apply newline_not_mem_append _ (by decide)
    exact newline_not_mem_append (by decide) (number _)
  have blank (n : Nat) : ' ' ∉ decimal n := by
    intro member
    exact absurd (isNumeral_decimal member) (by decide)
  rw [appendedLine, appendedLine] at same
  obtain ⟨lines, rests⟩ := printedLine_inj (clean _ _) (clean _ _) same
  simp only [List.append_assoc, List.append_cancel_left_eq] at lines
  obtain ⟨_, totals⟩ := delimited_inj (blank _) (blank _) lines
  exact ⟨decimal_injective (List.append_cancel_right
    (List.append_cancel_left totals)), rests⟩

theorem recentReport_injective {tag : BootHistory.Reason → UInt32}
    {recent recent' : List HistoryEntry}
    (same : recentReport tag recent = recentReport tag recent') :
    recent.length = recent'.length ∧
      recent.take Sequence.printRecentN =
        recent'.take Sequence.printRecentN := by
  rw [recentReport, recentReport] at same
  obtain ⟨totals, same⟩ := appendedLine_inj same
  refine ⟨totals, ?_⟩
  rw [recentLine, recentLine, totals] at same
  have same := List.append_cancel_left same
  rw [flatMap_historyLine, flatMap_historyLine] at same
  have clean (entries : List HistoryEntry) :
      Clean (entries.map (entryText tag)) := by
    intro line member
    obtain ⟨entry, _, rfl⟩ := List.mem_map.mp member
    exact newline_not_mem_entryText tag entry
  have lines := joined_injective (clean _) (clean _) same
  have injective : Function.Injective (entryText tag) :=
    fun _ _ equal => entryText_injective equal
  have entries := List.map_injective_iff.mpr injective lines
  have whole (recent : List HistoryEntry) :
      recent.take (min recent.length Sequence.printRecentN) =
        recent.take Sequence.printRecentN := by
    rw [Nat.min_comm, ← List.take_take, List.take_length]
  rw [← totals, whole] at entries
  rw [entries, totals, whole]

/-- What is printed of a stored history determines how many entries it has
and the newest of them, with every field. -/
theorem printHistory_injective {P : Platform} {texts : Texts P}
    {capacity : Nat} (keeps : P.history.KeepsRecent texts.history capacity)
    {history history' : P.history.History} {flash flash' : Flash}
    (same : printed ((Sequence.printHistory texts history (.ok ()) :
        BootM P Halt Unit).run flash).events =
      printed ((Sequence.printHistory texts history' (.ok ()) :
        BootM P Halt Unit).run flash').events) :
    texts.history.len history = texts.history.len history' ∧
      (texts.history.iterRecent history).take Sequence.printRecentN =
        (texts.history.iterRecent history').take Sequence.printRecentN := by
  rw [keeps.counted, keeps.counted]
  -- a text without the lines of the entries is that of an empty history
  have other {recent : List HistoryEntry} {rest : Text}
      (nonempty : recent ≠ [])
      (alike : appendedLine [] ++ [] = appendedLine recent ++ rest) :
      False :=
    nonempty (List.length_eq_zero_iff.mp (appendedLine_inj alike).1.symm)
  by_cases empty : texts.history.iterRecent history = []
  · rw [printed_printHistory_nil keeps empty, ← List.append_nil
      (appendedLine [])] at same
    by_cases empty' : texts.history.iterRecent history' = []
    · rw [empty, empty']
      exact ⟨rfl, rfl⟩
    · rw [printed_printHistory keeps rfl empty'] at same
      exact (other empty' same).elim
  · rw [printed_printHistory keeps rfl empty] at same
    by_cases empty' : texts.history.iterRecent history' = []
    · rw [printed_printHistory_nil keeps empty', ← List.append_nil
        (appendedLine [])] at same
      exact (other empty same.symm).elim
    · rw [printed_printHistory keeps rfl empty'] at same
      exact recentReport_injective same

end Lines

/-! ## A sample -/

namespace StandIn

def reasonByte : BootHistory.Reason → UInt8
  | .unknown => 0
  | .powerOn => 1
  | .externalReset => 2
  | .softwareReset => 3
  | .watchdogReset => 4
  | .brownoutReset => 5
  | .deepSleepWake => 6
  | .crashRecovery => 7
  | .intrusion => 8

/-- Eight reasons, a byte each, the newest first.  The store of a brownout
erases them and fails. -/
def logHistory : P4BootHistory :=
  { History := Vector UInt8 8
    Error := Unit
    loadFromFlashOrEmpty := fun offset flash => flash.slice offset 8
    append := fun history entry =>
      ⟨(reasonByte entry.reason :: history.toList.take 7).toArray, by simp⟩
    storeToFlash := fun offset history flash =>
      if history.toList.head? = some (reasonByte .brownoutReset) then
        (flash.program offset (List.replicate 8 0xFF), .error ())
      else (flash.program offset history.toList, .ok ()) }

def reasonEntry (byte : UInt8) : HistoryEntry :=
  ⟨0, 0, 0, byte.toUInt32⟩

def logText : HistoryText logHistory :=
  { reasonTag := fun reason => (reasonByte reason).toUInt32
    len := fun history => (history.toList.takeWhile (· ≠ 0xFF)).length
    iterRecent := fun history =>
      (history.toList.takeWhile (· ≠ 0xFF)).map reasonEntry
    romStatus := fun _ => none
    errorText := fun _ => [] }

end StandIn

def logStandIn : Platform :=
  { uptimeStandIn with history := StandIn.logHistory }

def StandIn.logTexts : Texts logStandIn :=
  { cause := StandIn.texts.cause
    crashdump := StandIn.texts.crashdump
    history := StandIn.logText
    bootstat := StandIn.texts.bootstat
    otaError := StandIn.texts.otaError
    slot := StandIn.texts.slot
    debugStr := StandIn.texts.debugStr
    psramInit := StandIn.texts.psramInit }

theorem framed_logStandIn : logStandIn.Framed := by
  have framed := framed_uptimeStandIn
  constructor
  · constructor
    · intro offset (record : Vector UInt8 8)
      have short : record.toList.length ≤ sectorSize := by
        rw [Vector.length_toList]
        exact Nat.le_of_ble_eq_true rfl
      intro flash
      simp only [logStandIn, StandIn.logHistory]
      split
      · exact touchesSector_program offset _ (Nat.le_of_ble_eq_true rfl)
          flash
      · exact touchesSector_program offset _ short flash
    · exact framed.bootstat
  · exact framed.ota

theorem keepsRecent_logHistory :
    StandIn.logHistory.KeepsRecent StandIn.logText 8 := by
  constructor
  · exact Nat.le_of_ble_eq_true rfl
  · intro (history : Vector UInt8 8) reason
    refine ⟨0, ?_⟩
    have used : StandIn.reasonByte reason ≠ 0xFF := by
      cases reason <;> decide
    have kept : (StandIn.reasonByte reason ::
        history.toList.take 7).takeWhile (· ≠ 0xFF) =
        push 8 (history.toList.takeWhile (· ≠ 0xFF))
          (StandIn.reasonByte reason) := by
      have front : (StandIn.reasonByte reason ::
          history.toList.take 7).takeWhile (· ≠ 0xFF) =
          StandIn.reasonByte reason ::
            (history.toList.take 7).takeWhile (· ≠ 0xFF) :=
        List.takeWhile_cons_of_pos (decide_eq_true used)
      rw [front, push, List.take_succ_cons, List.take_takeWhile]
    have shown := congrArg (List.map StandIn.reasonEntry) kept
    rw [push, List.map_take] at shown
    exact shown
  · intro history
    exact List.length_map .. |>.symm
  · intro offset flash flash' same
    exact same.slice (by decide) (by decide)
  · intro offset history flash stored
    simp only [StandIn.logHistory] at stored ⊢
    split at stored
    · cases stored
    · rename_i other
      rw [if_neg other]
      exact slice_program flash offset history (by decide)

theorem loggingBoot_main (P : Platform) (cause : Cause) (flash : Flash) :
    LoggingBoot P flash ⟨cause, flash⟩ (main P cause flash).flash :=
  ⟨SameRange.refl _ _ _, rfl⟩

/-- Four boots of an erased flash.  The third, after a brownout, cannot store
the history and erases it, so the fourth tells its own reason only. -/
theorem boots_tell_last_reasons_sample :
    ∃ first second third fourth,
      successiveBoots logStandIn
        [.powerOn, .superWatchdog, .brownOut, .superWatchdog] Flash.erased =
          [first, second, third, fourth] ∧
      [first, second, third, fourth].map (Boot.logFails logStandIn) =
        [false, false, true, false] ∧
      (∃ recent, PrintsRecent StandIn.logTexts second recent ∧
        (recent.map HistoryEntry.reason).take 5 = [4, 1]) ∧
      ∃ recent, PrintsRecent StandIn.logTexts fourth recent ∧
        (recent.map HistoryEntry.reason).take 5 = [4] := by
  have keeps : logStandIn.history.KeepsRecent StandIn.logTexts.history 8 :=
    keepsRecent_logHistory
  obtain ⟨last, run⟩ := exists_run_successiveBoots
    (loggingBoot_main logStandIn)
    [.powerOn, .superWatchdog, .brownOut, .superWatchdog] Flash.erased
  have told := boots_tell_last_reasons keeps framed_logStandIn run
  have fails : (successiveBoots logStandIn
      [.powerOn, .superWatchdog, .brownOut, .superWatchdog]
      Flash.erased).map (Boot.logFails logStandIn) =
        [false, false, true, false] := by
    decide +kernel
  refine ⟨_, _, _, _, rfl, fails, ?_, ?_⟩
  · obtain ⟨recent, prints, reasons, _⟩ := told [_] _ [_, _] rfl
      (by decide +kernel)
    refine ⟨recent, prints, (reasons (by decide +kernel)).trans ?_⟩
    decide +kernel
  · obtain ⟨recent, prints, _, reasons⟩ := told [_, _, _] _ [] rfl
      (by decide +kernel)
    refine ⟨recent, prints, (reasons [_, _] _ [] rfl
      (List.forall_mem_nil _)).trans ?_⟩
    decide +kernel

/-- Entries behind the newest five are not printed. -/
theorem printHistory_injective_sample :
    let history : Vector UInt8 8 := #v[4, 4, 4, 4, 4, 1, 0xFF, 0xFF]
    let history' : Vector UInt8 8 := #v[4, 4, 4, 4, 4, 2, 0xFF, 0xFF]
    StandIn.logText.len history = StandIn.logText.len history' ∧
      (StandIn.logText.iterRecent history).take 5 =
        (StandIn.logText.iterRecent history').take 5 := by
  intro history history'
  have keeps : logStandIn.history.KeepsRecent StandIn.logTexts.history 8 :=
    keepsRecent_logHistory
  have same : printed ((Sequence.printHistory StandIn.logTexts history
        (.ok ()) : BootM logStandIn Halt Unit).run Flash.erased).events =
      printed ((Sequence.printHistory StandIn.logTexts history' (.ok ()) :
        BootM logStandIn Halt Unit).run Flash.erased).events := by
    decide +kernel
  exact printHistory_injective keeps same

end MiniBootloader
