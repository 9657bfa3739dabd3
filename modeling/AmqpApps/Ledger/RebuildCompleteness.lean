import AmqpApps.Ledger.Rebuild

/-! # What a rebuild returns

The loop only observes silence. Silence before the first entry, counted from
the call and not from the opening of the reader, ends a rebuild too soon; so
does the silence of a reader stopped by a message it could not apply.
-/

namespace AmqpApps.Ledger

def journalReader (schedule : Schedule) (deliveries : List (Delivery Body)) :
    ℚ → Reader (Balances AccountKey Number) :=
  readerOf Balances.replay Balances.new schedule.began deliveries

/-! ## What can be read -/

/-- Every message has a line, and the amounts for each account can be added up. -/
def Readable (messages : List Body) : Prop :=
  (∀ message ∈ messages, message.line.isSome = true) ∧
    ∀ account, Number.Summable (Numbers.amountsFor account (messages.filterMap Body.line))

private theorem replayEach_of_lines {messages : List Body}
    (lined : ∀ message ∈ messages, message.line.isSome = true) :
    replayEach Balances.replay Balances.new messages =
      (Numbers.addAll ∅ (messages.filterMap Body.line)).map fun accounts =>
        ⟨accounts, messages.length⟩ := by
  induction messages using List.reverseRecOn with
  | nil => rfl
  | append_singleton messages message induction =>
      have before := induction fun other member => lined other (List.mem_append_left _ member)
      rcases Option.isSome_iff_exists.mp (lined message (by simp)) with ⟨line, isLine⟩
      have single : [message].filterMap Body.line = [line] := by simp [isLine]
      rw [replayEach_concat, before, List.filterMap_append, single, Numbers.addAll_concat]
      cases Numbers.addAll ∅ (messages.filterMap Body.line) with
      | none => rfl
      | some sums =>
          rw [Option.map_some, Option.bind_some, completed_replay, isLine, Option.bind_some,
            Option.bind_some, List.length_append, List.length_singleton]

private theorem lined_of_replayEach {messages : List Body}
    (replayed : (replayEach Balances.replay Balances.new messages).isSome = true) :
    ∀ message ∈ messages, message.line.isSome = true := by
  induction messages using List.reverseRecOn with
  | nil => nofun
  | append_singleton messages last induction =>
      intro message member
      rcases List.mem_append.mp member with earlier | now
      · exact induction (replayEach_earlier (List.prefix_append _ _) replayed) message
          earlier
      · rcases Option.isSome_iff_exists.mp replayed with ⟨final, all⟩
        rw [replayEach_concat] at all
        rcases Option.bind_eq_some_iff.mp all with ⟨sofar, -, completes⟩
        rw [completed_replay] at completes
        rcases Option.bind_eq_some_iff.mp completes with ⟨line, isLine, -⟩
        rw [List.mem_singleton.mp now, isLine]
        rfl

/-- What can be read is what `replay` raises on nowhere. -/
theorem readable_iff (messages : List Body) :
    Readable messages ↔ (replayEach Balances.replay Balances.new messages).isSome = true := by
  constructor
  · rintro ⟨lined, summable⟩
    rw [replayEach_of_lines lined, Option.isSome_map]
    exact (Numbers.addAll_isSome_iff _).mpr summable
  · intro replayed
    have lined := lined_of_replayEach replayed
    rw [replayEach_of_lines lined, Option.isSome_map] at replayed
    exact ⟨lined, (Numbers.addAll_isSome_iff _).mp replayed⟩

private theorem replayed_length {messages : List Body} {balances : Balances AccountKey Number}
    (replayed : replayEach Balances.replay Balances.new messages = some balances) :
    balances.replayed = messages.length := by
  have lined := lined_of_replayEach (by rw [replayed]; rfl)
  rw [replayEach_of_lines lined] at replayed
  rcases Option.map_eq_some_iff.mp replayed with ⟨accounts, -, rfl⟩
  rfl

/-! ## Prompt delivery -/

/-- A journal of well-formed entries as the broker delivers it. -/
def onWire (entries : List (Delivery EntryPosted)) : List (Delivery Body) :=
  entries.map fun entry => ⟨entry.time, entry.message.wire⟩

theorem replayEach_onWire (entries : List (Delivery EntryPosted)) :
    ∃ balances, replayEach Balances.replay Balances.new ((onWire entries).map Delivery.message) =
        some balances ∧
      SameDict (Balances.readThrough (entries.map fun entry => entry.message.line)).snapshot
        balances.snapshot ∧
      balances.replayed = entries.length := by
  induction entries using List.reverseRecOn with
  | nil => exact ⟨Balances.new, rfl, ⟨fun _ => rfl, fun _ => nofun⟩, rfl⟩
  | append_singleton entries last induction =>
      rcases induction with ⟨balances, replayed, same, counted⟩
      rcases same.add last.message.account last.message.amountMinor with ⟨more, added, after⟩
      refine ⟨⟨more, balances.replayed + 1⟩, ?_, ?_, ?_⟩
      · have message : (onWire (entries ++ [last])).map Delivery.message =
            (onWire entries).map Delivery.message ++
              [last.message.wire] := by
          simp [onWire]
        rw [message, replayEach_concat, replayed, Option.bind_some, completed_replay,
          line_wire, Option.bind_some, ← Balances.snapshot, added]
        rfl
      · rw [List.map_append, List.map_singleton, Balances.readThrough_concat]
        exact after
      · simp [counted]

/-- The first entry comes less than `QUIET_PERIOD` after `read_stream` returns,
or before it does, and each later one less than that after the one before. -/
structure Prompt (schedule : Schedule) (deliveries : List (Delivery Message)) : Prop where
  first : ∀ delivery ∈ deliveries.head?, schedule.began ≤ delivery.time ∧
    delivery.time < schedule.opened + quietPeriod
  later : deliveries.IsChain fun earlier later =>
    earlier.time ≤ later.time ∧ later.time < earlier.time + quietPeriod

/-- No poll comes a `QUIET_PERIOD` after the call and before the first entry. -/
def FirstInTime (schedule : Schedule) (deliveries : List (Delivery Message)) : Prop :=
  ∀ delivery ∈ deliveries.head?, ∀ poll, schedule.pollTime poll < delivery.time →
    schedule.pollTime poll - schedule.began < quietPeriod

private theorem Prompt.steady {schedule : Schedule} {deliveries : List (Delivery Message)}
    (prompt : Prompt schedule deliveries) (inTime : FirstInTime schedule deliveries) :
    Steady schedule deliveries := by
  intro poll ⟨awaited, member, late⟩
  have split : arrived deliveries (schedule.pollTime poll) ++ deliveries.dropWhile
      (fun delivery => decide (delivery.time ≤ schedule.pollTime poll)) = deliveries :=
    List.takeWhile_append_dropWhile
  have outstanding := List.head?_dropWhile_not
    (fun delivery => decide (delivery.time ≤ schedule.pollTime poll)) deliveries
  cases rest : deliveries.dropWhile
      (fun delivery => decide (delivery.time ≤ schedule.pollTime poll)) with
  | nil =>
      rw [rest, List.append_nil] at split
      rw [← split] at member
      have here : awaited.time ≤ schedule.pollTime poll := by
        simpa using List.mem_takeWhile_imp member
      exact absurd here (not_le.mpr late)
  | cons next tail =>
      rw [rest] at split outstanding
      have ahead : schedule.pollTime poll < next.time := by simpa using outstanding
      rcases List.eq_nil_or_concat (arrived deliveries (schedule.pollTime poll)) with
        nothing | ⟨earlier, last, something⟩
      · rw [nothing, List.nil_append] at split
        have first := inTime next (by simp [← split]) poll ahead
        simpa [Silent, nothing, lastTime] using first
      · have chain := prompt.later
        rw [← split, something, List.isChain_append] at chain
        have gap := (chain.2.2 last (by simp) next (by simp)).2
        simp only [Silent, something, lastTime, List.concat_eq_append, List.getLast?_append,
          List.getLast?_singleton, Option.some_or, Option.map_some, Option.getD_some, not_le]
        linarith

/-- A rebuild that is complete: the fold of `apply` over the whole journal. -/
def RebuiltWhole (schedule : Schedule) (entries : List (Delivery EntryPosted)) : Prop :=
  ∃ balances, rebuiltFrom schedule (journalReader schedule (onWire entries)) =
      some (.returned balances) ∧
    SameDict (Balances.readThrough (entries.map fun entry => entry.message.line)).snapshot
      balances.snapshot ∧
    balances.replayed = entries.length

private theorem rebuiltWhole_of_firstInTime {schedule : Schedule}
    {entries : List (Delivery EntryPosted)} (uncancelled : schedule.cancelled = none)
    (prompt : Prompt schedule (onWire entries)) (inTime : InTime schedule (onWire entries))
    (first : FirstInTime schedule (onWire entries)) : RebuiltWhole schedule entries := by
  rcases replayEach_onWire entries with ⟨balances, replayed, same⟩
  rcases rebuiltFrom_cases schedule (journalReader schedule (onWire entries)) with
    ⟨outcome, -, -, interrupted⟩ | ⟨last, quiet, -, returned⟩
  · exact absurd interrupted (readerOf_not_interrupted uncancelled inTime)
  · refine ⟨balances, ?_, same⟩
    rw [returned, journalReader, replayed_whole (prompt.steady first) replayed quiet]

/-- A poll that falls into the silence between the call and the first entry
ends the loop with nothing replayed. -/
theorem firstInTime_of_counted {schedule : Schedule} {deliveries : List (Delivery Body)}
    {balances : Balances AccountKey Number}
    (returned : rebuiltFrom schedule (journalReader schedule deliveries) =
      some (.returned balances))
    (counted : balances.replayed = deliveries.length) : FirstInTime schedule deliveries := by
  intro first isFirst poll before
  by_contra silence
  have nothingAt : ∀ now, now < first.time → arrived deliveries now = [] := by
    intro now early
    cases deliveries with
    | nil => rfl
    | cons head tail =>
        cases isFirst
        simp [arrived, early]
  have quiet : Quiet schedule (journalReader schedule deliveries) poll := by
    simpa [Quiet, journalReader, readerOf, nothingAt _ before] using silence
  rcases rebuiltFrom_cases schedule (journalReader schedule deliveries) with
    ⟨outcome, ended, other, -⟩ | ⟨last, -, continues, ended⟩
  · rw [returned] at ended
    cases ended
    exact other _ rfl
  · have order : last ≤ poll := by
      by_contra after
      exact (continues poll (by omega)).busy quiet
    have early : schedule.pollTime last < first.time :=
      (schedule.pollTime_mono order).trans_lt before
    rw [returned, journalReader, readerOf, nothingAt _ early] at ended
    cases ended
    rw [List.length_eq_zero_iff.mp counted.symm] at isFirst
    cases isFirst

/-- Of a journal delivered promptly the rebuild is complete exactly when no
poll found the call itself a `QUIET_PERIOD` old before the first entry came. -/
theorem rebuilt_whole_iff (schedule : Schedule) (entries : List (Delivery EntryPosted))
    (uncancelled : schedule.cancelled = none)
    (prompt : Prompt schedule (onWire entries))
    (inTime : InTime schedule (onWire entries)) :
    RebuiltWhole schedule entries ↔ FirstInTime schedule (onWire entries) := by
  constructor
  · rintro ⟨balances, returned, -, counted⟩
    exact firstInTime_of_counted returned (by simp [onWire, counted])
  · exact rebuiltWhole_of_firstInTime uncancelled prompt inTime

def openedAfter (opening : ℚ) (possible : 0 ≤ opening) : Schedule where
  began := 0
  opened := opening
  sleep := fun _ => 0.02
  cancelled := none
  began_le_opened := possible
  sleep_long := fun _ => le_rfl

def aliceFunded : EntryPosted :=
  ⟨"E-1", "OPENING-alice", "alice", 10000, "opening balance"⟩

def bobFunded : EntryPosted := ⟨"E-2", "OPENING-bob", "bob", 500, "opening balance"⟩

/-- The first entry is delivered while the reader is opened. -/
theorem quick_opening_rebuilds_whole :
    RebuiltWhole (openedAfter 0.1 (by norm_num))
      [⟨0.05, aliceFunded⟩, ⟨0.4, bobFunded⟩, ⟨0.4, aliceFunded⟩] := by
  refine (rebuilt_whole_iff (openedAfter 0.1 (by norm_num))
    [⟨0.05, aliceFunded⟩, ⟨0.4, bobFunded⟩, ⟨0.4, aliceFunded⟩] rfl ⟨?_, ?_⟩ ?_).mpr ?_
  · norm_num [onWire, openedAfter, quietPeriod]
  · norm_num [onWire, quietPeriod]
  · norm_num [InTime, onWire, openedAfter, Schedule.deadline, rebuildLimit]
  · intro delivery isFirst poll before
    cases isFirst
    have polled := (openedAfter 0.1 (by norm_num)).pollTime_mono (Nat.zero_le poll)
    norm_num [openedAfter, Schedule.pollTime] at before polled
    linarith

/-- The first entry comes 100 ms after `read_stream` returns, and is not read. -/
theorem slow_opening_rebuilds_nothing :
    let schedule := openedAfter 0.5 (by norm_num)
    let entries : List (Delivery EntryPosted) := [⟨0.6, aliceFunded⟩]
    schedule.cancelled = none ∧ Prompt schedule (onWire entries) ∧
      InTime schedule (onWire entries) ∧ ¬RebuiltWhole schedule entries := by
  refine ⟨rfl, ⟨?_, ?_⟩, ?_, ?_⟩
  · norm_num [onWire, openedAfter, quietPeriod]
  · simp [onWire]
  · norm_num [InTime, onWire, openedAfter, Schedule.deadline, rebuildLimit]
  · rintro ⟨balances, returned, -, counted⟩
    have first := firstInTime_of_counted returned (by simp [onWire, counted]) _ rfl 0
    norm_num [Schedule.pollTime, openedAfter, quietPeriod] at first

/-! ## All or nothing -/

/-- The call raises, as a cancelled one does, or it returns what `replay` makes of every message
without raising. -/
def AllOrNothing (schedule : Schedule) (deliveries : List (Delivery Body)) : Prop :=
  ∃ outcome, rebuiltFrom schedule (journalReader schedule deliveries) = some outcome ∧
    ∀ balances, outcome = .returned balances →
      replayEach Balances.replay Balances.new (deliveries.map Delivery.message) = some balances

/-- The deadline passes, or the call is cancelled, and no poll has been silent before, counted
from the last message that could be read. -/
def CutShort (schedule : Schedule) (deliveries : List (Delivery Body)) : Prop :=
  ∃ part, LongestPart Readable part deliveries ∧ Interrupted schedule (Silent schedule part)

private theorem journalReader_quiet {part deliveries : List (Delivery Body)}
    (read : LongestPart Readable part deliveries) (schedule : Schedule) :
    Quiet schedule (journalReader schedule deliveries) = Silent schedule part := by
  funext poll
  have replayed : LongestPart
      (fun messages => (replayEach Balances.replay Balances.new messages).isSome = true)
      part deliveries := by
    simpa only [readable_iff] using (⟨read.early, read.isReadable, read.longest⟩ :
      LongestPart (fun messages => Readable messages) part deliveries)
  rw [Quiet, journalReader, readerOf_lastSeen _ _ replayed, Silent]

private theorem cutShort_iff (schedule : Schedule) (deliveries : List (Delivery Body)) :
    CutShort schedule deliveries ↔
      Interrupted schedule (Quiet schedule (journalReader schedule deliveries)) := by
  constructor
  · rintro ⟨part, read, interrupted⟩
    rwa [journalReader_quiet read]
  · intro interrupted
    have empty : Readable [] := (readable_iff []).mpr rfl
    rcases exists_longestPart Readable empty deliveries with ⟨part, read⟩
    rw [journalReader_quiet read] at interrupted
    exact ⟨part, read, interrupted⟩

/-- A call that returns has read the whole journal only if it could be read, and if the first
message came in time. -/
theorem AllOrNothing.read {schedule : Schedule} {deliveries : List (Delivery Body)}
    (allOrNothing : AllOrNothing schedule deliveries)
    (whole : ¬CutShort schedule deliveries) :
    FirstInTime schedule deliveries ∧ Readable (deliveries.map Delivery.message) := by
  rcases allOrNothing with ⟨outcome, ended, complete⟩
  rcases rebuiltFrom_cases schedule (journalReader schedule deliveries) with
    ⟨-, -, -, interrupted⟩ | ⟨last, -, -, returned⟩
  · exact absurd ((cutShort_iff schedule deliveries).mpr interrupted) whole
  · rw [returned] at ended
    cases ended
    have replayed := complete _ rfl
    refine ⟨firstInTime_of_counted returned ?_, (readable_iff _).mpr (by rw [replayed]; rfl)⟩
    rw [replayed_length replayed, List.length_map]

/-- A rebuild whose messages come without delay is all or nothing exactly when it is cut short
before it finds a silence, or when the first message comes before a poll finds the call itself a
`QUIET_PERIOD` old and every message can be read. -/
theorem rebuild_all_or_nothing_iff (schedule : Schedule) (deliveries : List (Delivery Body))
    (prompt : Prompt schedule deliveries) :
    AllOrNothing schedule deliveries ↔
      CutShort schedule deliveries ∨
        FirstInTime schedule deliveries ∧ Readable (deliveries.map Delivery.message) := by
  constructor
  · intro allOrNothing
    by_cases short : CutShort schedule deliveries
    · exact .inl short
    · exact .inr (allOrNothing.read short)
  · intro condition
    rcases rebuiltFrom_cases schedule (journalReader schedule deliveries) with
      ⟨outcome, ended, other, -⟩ | ⟨last, quiet, continues, returned⟩
    · exact ⟨outcome, ended, fun balances same => absurd same (other balances)⟩
    · refine ⟨_, returned, ?_⟩
      rintro balances ⟨⟩
      rcases condition with short | ⟨first, readable⟩
      · exact absurd ((cutShort_iff schedule deliveries).mp short)
          (not_interrupted quiet continues)
      · rcases Option.isSome_iff_exists.mp ((readable_iff _).mp readable) with ⟨final, replayed⟩
        rw [journalReader, replayed_whole (prompt.steady first) replayed quiet]
        exact replayed

def entryOf (amountMinor : Value) : Body :=
  .object (toWire camelStripped [("entry_id", .str "E-1"), ("transfer_id", .str "T-1"),
    ("account", .str "alice"), ("amount_minor", amountMinor), ("description", .none)])

/-- Numbers of either type are added up, the first of them while the reader is opened. -/
theorem readable_journal_all_or_nothing :
    AllOrNothing (openedAfter 0.1 (by norm_num))
      [⟨0.05, entryOf (.int 100)⟩, ⟨0.4, entryOf (.float 0.5)⟩, ⟨0.7, entryOf (.bool true)⟩] := by
  refine (rebuild_all_or_nothing_iff (openedAfter 0.1 (by norm_num))
    [⟨0.05, entryOf (.int 100)⟩, ⟨0.4, entryOf (.float 0.5)⟩, ⟨0.7, entryOf (.bool true)⟩]
    ⟨?_, ?_⟩).mpr (.inr ⟨?_, ?_⟩)
  · norm_num [openedAfter, quietPeriod]
  · norm_num [quietPeriod]
  · intro delivery isFirst poll before
    cases isFirst
    have polled := (openedAfter 0.1 (by norm_num)).pollTime_mono (Nat.zero_le poll)
    norm_num [openedAfter, Schedule.pollTime] at before polled
    linarith
  · exact (readable_iff _).mpr (by decide +kernel)

private theorem not_cutShort {schedule : Schedule} {deliveries : List (Delivery Body)}
    (uncancelled : schedule.cancelled = none) (inTime : InTime schedule deliveries) :
    ¬CutShort schedule deliveries := by
  intro short
  exact readerOf_not_interrupted uncancelled inTime ((cutShort_iff schedule deliveries).mp short)

def present (messages : List Body) : List (Delivery Body) :=
  messages.map fun message => ⟨0, message⟩

/-- A message without fields, and one whose amount is too large for a `float`: the rebuild
returns what came before them. One of a reader that is slow to open returns nothing. -/
theorem unreadable_message_rebuilds_prefix :
    let quick := openedAfter 0 le_rfl
    let alice := aliceFunded.wire
    let unreadable := present [alice, .object ∅, alice]
    let tooLarge := present [entryOf (.float 0.5), entryOf (.int (10 ^ 400)), entryOf (.int 1)]
    let slow := openedAfter 0.5 (by norm_num)
    let late : List (Delivery Body) := [⟨0.6, alice⟩]
    (Prompt quick unreadable ∧ ¬AllOrNothing quick unreadable ∧
      ∃ balances, rebuiltFrom quick (journalReader quick unreadable) =
          some (.returned balances) ∧
        balances.replayed = 1 ∧ Numbers.of balances.accounts (.str "alice") = .int 10000) ∧
    (Prompt quick tooLarge ∧ ¬AllOrNothing quick tooLarge) ∧
    Prompt slow late ∧ ¬AllOrNothing slow late := by
  intro quick alice unreadable tooLarge slow late
  have there : ∀ messages, ∀ delivery ∈ present messages, delivery.time ≤ quick.opened := by
    simp [present, quick, openedAfter]
  have inTime : ∀ messages, InTime quick (present messages) := by
    intro messages delivery member
    have opened := there messages delivery member
    simp only [Schedule.deadline, rebuildLimit]
    linarith
  have whole : ∀ messages, ¬CutShort quick (present messages) :=
    fun messages => not_cutShort rfl (inTime messages)
  refine ⟨⟨?_, ?_, ?_⟩, ⟨?_, ?_⟩, ?_, ?_⟩
  · constructor <;> norm_num [unreadable, present, quick, openedAfter, quietPeriod]
  · intro allOrNothing
    have read := (readable_iff _).mp (allOrNothing.read (whole _)).2
    revert read
    decide +kernel
  · exact ⟨_, rebuiltFrom_present rfl (there _), by decide +kernel, rfl⟩
  · constructor <;> norm_num [tooLarge, present, quick, openedAfter, quietPeriod]
  · intro allOrNothing
    have read := (readable_iff _).mp (allOrNothing.read (whole _)).2
    revert read
    decide +kernel
  · constructor <;> norm_num [late, slow, openedAfter, quietPeriod]
  · intro allOrNothing
    have whole : ¬CutShort slow late := by
      apply not_cutShort rfl
      norm_num [InTime, late, slow, openedAfter, Schedule.deadline, rebuildLimit]
    have first := (allOrNothing.read whole).1 _ rfl 0
    norm_num [Schedule.pollTime, slow, openedAfter, quietPeriod] at first

end AmqpApps.Ledger
