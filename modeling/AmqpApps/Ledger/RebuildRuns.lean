import AmqpApps.Ledger.RebuildLoop
import Mathlib.Data.List.Chain

/-! # The steps of a rebuild make a run of the loop

A call that has left its loop has done what `rebuiltFrom` computes from the times of its
polls and from what the reader had come to at each.
-/

namespace AmqpApps.Ledger

/-! ## The polls of a call -/

def Spaced (polls : List Poll) : Prop :=
  polls.IsChain fun earlier later => earlier.time + 0.02 ≤ later.time

private theorem Spaced.concat {polls : List Poll} (spaced : Spaced polls) {poll : Poll}
    (slept : ∀ last ∈ polls.getLast?, last.time + 0.02 ≤ poll.time) :
    Spaced (polls ++ [poll]) := by
  apply List.isChain_append.mpr
  refine ⟨spaced, List.isChain_singleton _, ?_⟩
  intro last isLast next isNext
  cases isNext
  exact slept last isLast

namespace RebuildCall

def Started (call : RebuildCall) : Prop :=
  ∃ first rest, call.polls = first :: rest ∧ call.began ≤ first.time ∧
    call.deadline = first.time + rebuildLimit

structure Timed (call : RebuildCall) : Prop where
  opening : call.line = .opening → call.polls = [] ∧ call.began ≤ call.clock
  started : call.line ≠ .opening → call.Started
  spaced : Spaced call.polls
  slept : ∀ since, call.line = .sleeping since →
    ∀ last ∈ call.polls.getLast?, last.time = since
  read : ∀ poll ∈ call.polls, poll.reader.lastSeen = poll.seen

private theorem poll_cases (call : RebuildCall) :
    call.poll.polls = call.polls ++ [⟨call.clock, call.seen, call.reader⟩] ∧
      call.poll.began = call.began ∧ call.poll.deadline = call.deadline ∧
      (call.poll.line = .sleeping call.clock ∨ ∃ loopEnd, call.poll.line = .closing loopEnd) := by
  rw [poll]
  split
  · split
    · exact ⟨rfl, rfl, rfl, .inr ⟨_, rfl⟩⟩
    · exact ⟨rfl, rfl, rfl, .inl rfl⟩
  · exact ⟨rfl, rfl, rfl, .inr ⟨_, rfl⟩⟩

private theorem Started.poll {call : RebuildCall} (started : call.Started) : call.poll.Started := by
  rcases started with ⟨first, rest, polls, began, deadline⟩
  rcases call.poll_cases with ⟨noted, same, unmoved, -⟩
  refine ⟨first, rest ++ [⟨call.clock, call.seen, call.reader⟩], ?_, ?_, ?_⟩
  · rw [noted, polls]
    rfl
  · rw [same]
    exact began
  · rw [unmoved]
    exact deadline

private theorem started_first {call : RebuildCall} (none : call.polls = [])
    (began : call.began ≤ call.clock) (deadline : call.deadline = call.clock + rebuildLimit) :
    call.poll.Started := by
  rcases call.poll_cases with ⟨noted, same, unmoved, -⟩
  refine ⟨⟨call.clock, call.seen, call.reader⟩, [], ?_, ?_, ?_⟩
  · rw [noted, none]
    rfl
  · rw [same]
    exact began
  · rw [unmoved]
    exact deadline

private theorem timed_poll (call : RebuildCall) (seen : call.reader.lastSeen = call.seen)
    (spaced : Spaced call.polls) (read : ∀ poll ∈ call.polls, poll.reader.lastSeen = poll.seen)
    (slept : ∀ last ∈ call.polls.getLast?, last.time + 0.02 ≤ call.clock)
    (started : call.poll.Started) : call.poll.Timed := by
  rcases call.poll_cases with ⟨polls, -, -, line⟩
  constructor
  · intro opening
    rcases line with sleeping | ⟨loopEnd, closing⟩
    · rw [sleeping] at opening
      cases opening
    · rw [closing] at opening
      cases opening
  · exact fun _ => started
  · rw [polls]
    exact spaced.concat slept
  · intro since asleep last isLast
    rw [polls, List.getLast?_append] at isLast
    cases isLast
    rcases line with sleeping | ⟨loopEnd, closing⟩
    · rw [sleeping] at asleep
      cases asleep
      rfl
    · rw [closing] at asleep
      cases asleep
  · intro poll member
    rw [polls] at member
    rcases List.mem_append.mp member with before | now
    · exact read poll before
    · rw [List.mem_singleton.mp now]
      exact seen

private theorem Timed.kept {call : RebuildCall} {action : RebuildAction} (looping : call.Looping)
    (timed : call.Timed) (enabled : call.Enabled action) : (call.perform action).Timed := by
  cases action with
  | pass duration =>
      refine ⟨?_, timed.started, timed.spaced, timed.slept, timed.read⟩
      intro opening
      rcases timed.opening opening with ⟨none, began⟩
      have later : call.clock ≤ call.clock + duration := le_add_of_nonneg_right enabled
      exact ⟨none, began.trans later⟩
  | deliver message =>
      exact ⟨timed.opening, timed.started, timed.spaced, timed.slept, timed.read⟩
  | opened =>
      rcases timed.opening enabled with ⟨none, began⟩
      apply timed_poll { call with deadline := call.clock + rebuildLimit } looping.seen
        timed.spaced timed.read
      · intro last isLast
        simp [none] at isLast
      · exact started_first none began rfl
  | wake =>
      cases line : call.line with
      | sleeping since =>
          have awake : since + 0.02 ≤ call.clock := by
            rw [Enabled, line] at enabled
            exact enabled
          apply timed_poll call looping.seen timed.spaced timed.read
          · intro last isLast
            rw [timed.slept since line last isLast]
            exact awake
          · exact (timed.started (by simp [line])).poll
      | _ => simp [Enabled, line, RebuildLine.Rested] at enabled
  | cancel =>
      cases line : call.line with
      | sleeping since =>
          exact ⟨by rintro ⟨⟩, fun _ => timed.started (by simp [line]), timed.spaced,
            by rintro _ ⟨⟩, timed.read⟩
      | _ => simp [Enabled, line, RebuildLine.isSleeping] at enabled
  | closed =>
      cases line : call.line with
      | closing loopEnd =>
          simp only [perform, line]
          exact ⟨by rintro ⟨⟩, fun _ => timed.started (by simp [line]), timed.spaced,
            by rintro _ ⟨⟩, timed.read⟩
      | _ => simp [Enabled, line, RebuildLine.isClosing] at enabled

private theorem Timed.of_reached {call : RebuildCall}
    (reached : rebuildCall.Reached TransitionSystem.anyStep call) : call.Timed :=
  reached.invariant_using Looping Timed (fun _ => Looping.of_reached)
    (fun _ first => by
      rcases first with ⟨began, rfl⟩
      exact ⟨fun _ => ⟨rfl, le_rfl⟩, fun started => absurd rfl started, .nil,
        by rintro _ ⟨⟩, by rintro _ ⟨⟩⟩)
    fun _ _ looping timed _ enabled => timed.kept looping enabled

end RebuildCall

/-! ## The run that the polls make -/

def LoopEnd.outcome (balances : Balances AccountKey Number) :
    LoopEnd → Outcome (Balances AccountKey Number)
  | returned => .returned balances
  | raised _ => .raised
  | cancelled => .cancelled

private theorem LoopEnd.Follows.goesOn {deadline : ℚ} {earlier : List Poll} {last : Poll}
    {loopEnd : LoopEnd} (follows : loopEnd.Follows deadline (earlier ++ [last])) :
    ∀ poll ∈ earlier, poll.GoesOn deadline := by
  cases loopEnd with
  | returned => exact (caughtUp_concat.mp follows).1
  | raised message => exact (overdue_concat.mp follows.1).1
  | cancelled => exact fun poll member => follows poll (List.mem_append_left _ member)

/-- The loop of `rebuiltFrom` polls at these times, and finds these readers. -/
structure Shows (schedule : Schedule) (readerAt : ℚ → Reader (Balances AccountKey Number))
    (polls : List Poll) : Prop where
  time : ∀ index poll, polls[index]? = some poll → schedule.pollTime index = poll.time
  reader : ∀ poll ∈ polls, readerAt poll.time = poll.reader
  seen : ∀ poll ∈ polls, poll.reader.lastSeen = poll.seen

namespace Shows

variable {schedule : Schedule} {readerAt : ℚ → Reader (Balances AccountKey Number)}
variable {polls : List Poll}

private theorem pollFrom_succ (shows : Shows schedule readerAt polls) (fuel : ℕ) {index : ℕ}
    {poll : Poll} (there : polls[index]? = some poll) :
    pollFrom schedule readerAt (fuel + 1) index =
      if poll.time - poll.seen < quietPeriod then
        if poll.time > schedule.deadline then some .raised
        else if schedule.cancelled = some index then some .cancelled
        else pollFrom schedule readerAt fuel (index + 1)
      else some (.returned poll.reader.state) := by
  have member := List.mem_of_getElem? there
  rw [pollFrom, shows.time index poll there, shows.reader poll member, shows.seen poll member]

private theorem pollFrom_goesOn (shows : Shows schedule readerAt polls) (fuel : ℕ) {index : ℕ}
    {poll : Poll} (there : polls[index]? = some poll) (goesOn : poll.GoesOn schedule.deadline)
    (uncancelled : schedule.cancelled ≠ some index) :
    pollFrom schedule readerAt (fuel + 1) index =
      pollFrom schedule readerAt fuel (index + 1) := by
  have fresh : poll.time - poll.seen < quietPeriod := goesOn.fresh
  rw [shows.pollFrom_succ fuel there, if_pos fresh, if_neg goesOn.not_after,
    if_neg uncancelled]

private theorem pollFrom_earlier (shows : Shows schedule readerAt polls) {earlier later : List Poll}
    (parts : polls = earlier ++ later)
    (goesOn : ∀ poll ∈ earlier, poll.GoesOn schedule.deadline)
    (uncancelled : ∀ index < earlier.length, schedule.cancelled ≠ some index) (fuel : ℕ) :
    pollFrom schedule readerAt (fuel + earlier.length) 0 =
      pollFrom schedule readerAt fuel earlier.length := by
  induction earlier using List.reverseRecOn generalizing later fuel with
  | nil => rfl
  | append_singleton earlier poll induction =>
      rw [List.append_assoc] at parts
      have before := induction parts
        (fun poll member => goesOn poll (List.mem_append_left _ member))
        (fun index early => uncancelled index (by rw [List.length_append]; omega)) (fuel + 1)
      have there : polls[earlier.length]? = some poll := by
        rw [parts]
        simp
      rw [List.length_append, List.length_singleton, Nat.add_comm earlier.length 1,
        ← Nat.add_assoc, before, Nat.add_comm 1]
      exact shows.pollFrom_goesOn fuel there (goesOn poll (by simp))
        (uncancelled earlier.length (by simp))

/-- The loop ends at the last of the polls as they say. -/
theorem rebuiltFrom_of_follows (shows : Shows schedule readerAt polls) {earlier : List Poll}
    {last : Poll} (parts : polls = earlier ++ [last]) (few : polls.length ≤ maxPolls)
    {loopEnd : LoopEnd} (follows : loopEnd.Follows schedule.deadline polls)
    (cancelled : schedule.cancelled =
      if loopEnd = .cancelled then some earlier.length else none) :
    rebuiltFrom schedule readerAt = some (loopEnd.outcome last.reader.state) := by
  subst parts
  have there : (earlier ++ [last])[earlier.length]? = some last := by simp
  have uncancelled : ∀ index < earlier.length, schedule.cancelled ≠ some index := by
    intro index early
    rw [cancelled]
    split
    · simpa using early.ne'
    · simp
  have fuel : maxPolls = maxPolls - (earlier.length + 1) + 1 + earlier.length := by
    rw [List.length_append, List.length_singleton] at few
    omega
  rw [rebuiltFrom, fuel, shows.pollFrom_earlier rfl follows.goesOn uncancelled,
    shows.pollFrom_succ _ there]
  cases loopEnd with
  | returned =>
      have stale : ¬last.Fresh := (caughtUp_concat.mp follows).2
      exact if_neg stale
  | raised message =>
      have overdue := (overdue_concat.mp follows.1).2
      have fresh : last.time - last.seen < quietPeriod := overdue.1
      rw [if_pos fresh, if_pos overdue.2]
      rfl
  | cancelled =>
      have goesOn := follows last (by simp)
      have fresh : last.time - last.seen < quietPeriod := goesOn.fresh
      rw [if_pos fresh, if_neg goesOn.not_after,
        if_pos (cancelled.trans (if_pos rfl))]
      rfl

end Shows

/-! ## The schedule of a call -/

def timeOf (polls : List Poll) (index : ℕ) : ℚ := (polls[index]?.map Poll.time).getD 0

/-- How long a sleep took, and those that there never were. -/
def sleepOf (polls : List Poll) (index : ℕ) : ℚ :=
  if index + 1 < polls.length then timeOf polls (index + 1) - timeOf polls index else 0.02

def readerOfPolls (polls : List Poll) (now : ℚ) : Reader (Balances AccountKey Number) :=
  ((polls.find? fun poll => poll.time = now).map Poll.reader).getD ⟨.new, 0, false⟩

private theorem timeOf_of_getElem {polls : List Poll} {index : ℕ} {poll : Poll}
    (there : polls[index]? = some poll) : timeOf polls index = poll.time := by
  rw [timeOf, there]
  rfl

private theorem Spaced.sleepOf_long {polls : List Poll} (spaced : Spaced polls) (index : ℕ) :
    0.02 ≤ sleepOf polls index := by
  rw [sleepOf]
  split
  · rename_i next
    have slept := List.isChain_iff_getElem.mp spaced index next
    rw [timeOf_of_getElem (List.getElem?_eq_getElem next),
      timeOf_of_getElem (List.getElem?_eq_getElem (Nat.lt_of_succ_lt next))]
    linarith
  · exact le_rfl

private theorem Spaced.increasing {before after : List Poll} {poll : Poll}
    (spaced : Spaced (before ++ poll :: after)) {earlier : Poll} (early : earlier ∈ before) :
    earlier.time < poll.time := by
  have later : Trans (fun earlier later : Poll => earlier.time < later.time)
      (fun earlier later : Poll => earlier.time < later.time)
      (fun earlier later : Poll => earlier.time < later.time) := ⟨lt_trans⟩
  have chain : (before ++ poll :: after).IsChain fun earlier later => earlier.time < later.time :=
    spaced.imp fun earlier later slept => by linarith
  exact (List.pairwise_append.mp (List.isChain_iff_pairwise.mp chain)).2.2 earlier early poll
    (List.mem_cons_self ..)

private theorem Spaced.readerOfPolls {polls : List Poll} (spaced : Spaced polls) {poll : Poll}
    (member : poll ∈ polls) : readerOfPolls polls poll.time = poll.reader := by
  have found : polls.find? (fun other => other.time = poll.time) = some poll := by
    rcases List.append_of_mem member with ⟨before, after, rfl⟩
    rw [List.find?_append, List.find?_eq_none.mpr]
    · simp
    · intro other early
      simpa using (spaced.increasing early).ne
  rw [AmqpApps.Ledger.readerOfPolls, found]
  rfl

namespace RebuildCall

def schedule (call : RebuildCall) (timed : call.Timed) (started : call.Started)
    (loopEnd : LoopEnd) : Schedule where
  began := call.began
  opened := timeOf call.polls 0
  sleep := sleepOf call.polls
  cancelled := if loopEnd = .cancelled then some (call.polls.length - 1) else none
  began_le_opened := by
    rcases started with ⟨first, rest, polls, began, -⟩
    have opened : timeOf call.polls 0 = first.time := timeOf_of_getElem (by rw [polls]; rfl)
    rw [opened]
    exact began
  sleep_long := timed.spaced.sleepOf_long

variable {call : RebuildCall} (timed : call.Timed) (started : call.Started) (loopEnd : LoopEnd)

private theorem schedule_deadline :
    (call.schedule timed started loopEnd).deadline = call.deadline := by
  have started' := started
  rcases started' with ⟨first, rest, polls, -, deadline⟩
  have opened : timeOf call.polls 0 = first.time := timeOf_of_getElem (by rw [polls]; rfl)
  rw [Schedule.deadline, deadline, ← opened]
  rfl

private theorem schedule_pollTime (index : ℕ) (there : index < call.polls.length) :
    (call.schedule timed started loopEnd).pollTime index = timeOf call.polls index := by
  induction index with
  | zero => rfl
  | succ index induction =>
      rw [Schedule.pollTime, induction (Nat.lt_of_succ_lt there)]
      simp only [schedule, sleepOf, if_pos there]
      linarith

private theorem schedule_shows :
    Shows (call.schedule timed started loopEnd) (readerOfPolls call.polls) call.polls := by
  constructor
  · intro index poll there
    rw [schedule_pollTime timed started loopEnd index (List.getElem?_eq_some_iff.mp there).1]
    exact timeOf_of_getElem there
  · exact fun poll member => timed.spaced.readerOfPolls member
  · exact timed.read

end RebuildCall

end AmqpApps.Ledger
