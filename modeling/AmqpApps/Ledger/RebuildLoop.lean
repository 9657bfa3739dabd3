import AmqpApps.Foundation.TransitionSystem
import AmqpApps.Ledger.RebuildCompleteness

/-! # How the rebuild loop ends

`rebuilt_from` and the deliveries to its reader, step by step. Any of them can come between
two polls, and nothing says that they stop.
-/

namespace AmqpApps.Ledger

inductive LoopEnd
  | returned
  | raised (message : String)
  | cancelled
deriving DecidableEq

inductive RebuildLine
  /-- At `read_stream`. -/
  | opening
  /-- At `asyncio.sleep(0.02)`. -/
  | sleeping (since : ℚ)
  /-- At `reader.close()`. -/
  | closing (loopEnd : LoopEnd)
  | ended (loopEnd : LoopEnd)
deriving DecidableEq

/-- The sleep is over, and has taken at least as long as was asked. -/
def RebuildLine.Rested (clock : ℚ) : RebuildLine → Prop
  | sleeping since => since + 0.02 ≤ clock
  | _ => False

instance (line : RebuildLine) (clock : ℚ) : Decidable (line.Rested clock) := by
  rcases line with ⟨⟩ <;> unfold RebuildLine.Rested <;> infer_instance

def RebuildLine.loopEnd : RebuildLine → Option LoopEnd
  | closing loopEnd | ended loopEnd => some loopEnd
  | _ => none

def RebuildLine.isSleeping : RebuildLine → Bool
  | sleeping _ => true
  | _ => false

def RebuildLine.isClosing : RebuildLine → Bool
  | closing _ => true
  | _ => false

/-- The clock reads of one turn of the loop, and what the reader has come to. -/
structure Poll where
  time : ℚ
  /-- The time of the last entry applied by then, or of the call. -/
  seen : ℚ
  reader : Reader (Balances AccountKey Number)

structure RebuildCall where
  clock : ℚ
  began : ℚ
  reader : Reader (Balances AccountKey Number)
  /-- Of no account before `read_stream` has returned. -/
  deadline : ℚ
  line : RebuildLine
  /-- How often `reader.close()` has been called. -/
  closes : ℕ
  /-- When an entry was applied. -/
  applied : List ℚ
  polls : List Poll

inductive RebuildAction
  | pass (duration : ℚ)
  /-- The reader is handed a message. -/
  | deliver (message : Body)
  /-- `read_stream` returns. -/
  | opened
  /-- The sleep is over. -/
  | wake
  /-- The sleep is cancelled. -/
  | cancel
  /-- `reader.close()` returns or raises. -/
  | closed

def rebuildError : String :=
  "the journal did not stop producing entries within 30.0s; " ++
    "a rebuild cannot finish while somebody is still writing"

def Reader.applies (reader : Reader (Balances AccountKey Number)) (message : Body) : Bool :=
  !reader.stopped && (reader.state.replay message).2.isNone

/-- `last_seen` is set by such a call and by no other. -/
theorem Reader.receive_lastSeen (reader : Reader (Balances AccountKey Number)) (time : ℚ)
    (message : Body) :
    (reader.receive Balances.replay { time := time, message := message }).lastSeen =
      if reader.applies message then time else reader.lastSeen := by
  rcases reader with ⟨balances, lastSeen, stopped⟩
  cases stopped with
  | true => rfl
  | false =>
      simp only [receive, applies, Bool.false_eq_true, if_false, Bool.not_false, Bool.true_and]
      cases balances.replay message with
      | mk state error => cases error <;> rfl

namespace RebuildCall

def initial (began : ℚ) : RebuildCall :=
  { clock := began
    began := began
    reader := ⟨.new, began, false⟩
    deadline := began
    line := .opening
    closes := 0
    applied := []
    polls := [] }

/-- When the last entry was applied, or else the call made. -/
def seen (call : RebuildCall) : ℚ := call.applied.getLast?.getD call.began

def leave (call : RebuildCall) (loopEnd : LoopEnd) : RebuildCall :=
  { call with line := .closing loopEnd, closes := call.closes + 1 }

def poll (call : RebuildCall) : RebuildCall :=
  let noted := { call with polls := call.polls ++ [Poll.mk call.clock call.seen call.reader] }
  if call.clock - call.reader.lastSeen < quietPeriod then
    if call.clock > call.deadline then noted.leave (.raised rebuildError)
    else { noted with line := .sleeping call.clock }
  else noted.leave .returned

def Enabled (call : RebuildCall) : RebuildAction → Prop
  | .pass duration => 0 ≤ duration
  | .deliver _ => True
  | .opened => call.line = .opening
  | .wake => call.line.Rested call.clock
  | .cancel => call.line.isSleeping = true
  | .closed => call.line.isClosing = true

instance (call : RebuildCall) (action : RebuildAction) : Decidable (call.Enabled action) := by
  rcases action with ⟨⟩ <;> unfold Enabled <;> infer_instance

def perform (call : RebuildCall) : RebuildAction → RebuildCall
  | .pass duration => { call with clock := call.clock + duration }
  | .deliver message =>
      { call with
        reader := call.reader.receive Balances.replay { time := call.clock, message := message }
        applied :=
          call.applied ++ if call.reader.applies message then [call.clock] else [] }
  | .opened => { call with deadline := call.clock + rebuildLimit }.poll
  | .wake => call.poll
  | .cancel => call.leave .cancelled
  | .closed =>
      match call.line with
      | .closing loopEnd => { call with line := .ended loopEnd }
      | _ => call

end RebuildCall

def rebuildCall : TransitionSystem RebuildCall RebuildAction where
  Initial call := ∃ began, call = .initial began
  Enabled := RebuildCall.Enabled
  perform := RebuildCall.perform

instance (call : RebuildCall) (action : RebuildAction) :
    Decidable (rebuildCall.Enabled call action) :=
  inferInstanceAs (Decidable (call.Enabled action))

/-! ## What the polls say -/

/-- Something was applied within `QUIET_PERIOD`. -/
def Poll.Fresh (poll : Poll) : Prop := poll.time - poll.seen < quietPeriod

structure Poll.GoesOn (deadline : ℚ) (poll : Poll) : Prop where
  fresh : poll.Fresh
  inTime : poll.time ≤ deadline

/-- Every poll is fresh, up to the first one after the deadline, which is the last. -/
def Overdue (deadline : ℚ) (polls : List Poll) : Prop :=
  ∃ earlier last, polls = earlier ++ [last] ∧ (∀ poll ∈ earlier, poll.GoesOn deadline) ∧
    last.Fresh ∧ deadline < last.time

/-- The last poll is the first that is not fresh, and none before it is after the deadline. -/
def CaughtUp (deadline : ℚ) (polls : List Poll) : Prop :=
  ∃ earlier last, polls = earlier ++ [last] ∧ (∀ poll ∈ earlier, poll.GoesOn deadline) ∧
    ¬last.Fresh

def LoopEnd.Follows (deadline : ℚ) (polls : List Poll) : LoopEnd → Prop
  | returned => CaughtUp deadline polls
  | raised message => Overdue deadline polls ∧ message = rebuildError
  | cancelled => ∀ poll ∈ polls, poll.GoesOn deadline

theorem Poll.GoesOn.not_after {deadline : ℚ} {poll : Poll} (goesOn : poll.GoesOn deadline) :
    ¬deadline < poll.time :=
  not_lt.mpr goesOn.inTime

theorem caughtUp_concat {deadline : ℚ} {earlier : List Poll} {last : Poll} :
    CaughtUp deadline (earlier ++ [last]) ↔
      (∀ poll ∈ earlier, poll.GoesOn deadline) ∧ ¬last.Fresh := by
  constructor
  · intro caughtUp
    rcases caughtUp with ⟨before, final, same, goesOn, stale⟩
    rcases List.append_inj' same rfl with ⟨rfl, sameLast⟩
    cases sameLast
    exact ⟨goesOn, stale⟩
  · intro parts
    exact ⟨earlier, last, rfl, parts⟩

theorem overdue_concat {deadline : ℚ} {earlier : List Poll} {last : Poll} :
    Overdue deadline (earlier ++ [last]) ↔
      (∀ poll ∈ earlier, poll.GoesOn deadline) ∧ last.Fresh ∧ deadline < last.time := by
  constructor
  · intro overdue
    rcases overdue with ⟨before, final, same, goesOn, fresh, late⟩
    rcases List.append_inj' same rfl with ⟨rfl, sameLast⟩
    cases sameLast
    exact ⟨goesOn, fresh, late⟩
  · intro parts
    exact ⟨earlier, last, rfl, parts⟩

private theorem CaughtUp.not_overdue {deadline : ℚ} {polls : List Poll}
    (caughtUp : CaughtUp deadline polls) : ¬Overdue deadline polls := by
  intro overdue
  rcases overdue with ⟨earlier, last, rfl, -, fresh, -⟩
  exact (caughtUp_concat.mp caughtUp).2 fresh

private theorem CaughtUp.stops {deadline : ℚ} {polls : List Poll}
    (caughtUp : CaughtUp deadline polls) :
    ¬∀ poll ∈ polls, poll.GoesOn deadline := by
  rcases caughtUp with ⟨earlier, last, rfl, -, stale⟩
  intro goesOn
  exact stale (goesOn last (List.mem_append_right _ (List.mem_singleton.mpr rfl))).fresh

private theorem Overdue.stops {deadline : ℚ} {polls : List Poll}
    (overdue : Overdue deadline polls) :
    ¬∀ poll ∈ polls, poll.GoesOn deadline := by
  rcases overdue with ⟨earlier, last, rfl, -, -, late⟩
  intro goesOn
  exact absurd late (goesOn last (List.mem_append_right _ (List.mem_singleton.mpr rfl))).not_after

/-- The polls tell the ways of ending apart. -/
theorem LoopEnd.follows_iff {deadline : ℚ} {polls : List Poll} {loopEnd : LoopEnd}
    (follows : loopEnd.Follows deadline polls) (other : LoopEnd) :
    loopEnd = other ↔ other.Follows deadline polls := by
  constructor
  · intro same
    subst same
    exact follows
  · intro holds
    cases loopEnd with
    | returned =>
        cases other with
        | returned => rfl
        | raised message => exact absurd holds.1 (CaughtUp.not_overdue follows)
        | cancelled => exact absurd holds (CaughtUp.stops follows)
    | raised message =>
        cases other with
        | returned => exact absurd follows.1 (CaughtUp.not_overdue holds)
        | raised other => rw [follows.2, holds.2]
        | cancelled => exact absurd holds follows.1.stops
    | cancelled =>
        cases other with
        | returned => exact absurd follows (CaughtUp.stops holds)
        | raised message => exact absurd follows holds.1.stops
        | cancelled => rfl

/-! ## The invariant -/

namespace RebuildCall

/-- What is known of a call at each line of it. `maxPolls` is more than `REBUILD_LIMIT` over
the shortest sleep, and the polls so far have taken as long as their sleeps. -/
def Placed (call : RebuildCall) : RebuildLine → Prop
  | .opening => call.polls = [] ∧ call.closes = 0
  | .sleeping since =>
      (∀ poll ∈ call.polls, poll.GoesOn call.deadline) ∧ call.closes = 0 ∧
        since ≤ call.deadline ∧
        (call.polls.length : ℚ) ≤ 1 + 50 * (since - (call.deadline - rebuildLimit))
  | .closing loopEnd | .ended loopEnd =>
      loopEnd.Follows call.deadline call.polls ∧ call.closes = 1 ∧
        call.polls.length ≤ maxPolls

structure Looping (call : RebuildCall) : Prop where
  seen : call.reader.lastSeen = call.seen
  placed : call.Placed call.line

private theorem seen_deliver (call : RebuildCall) (message : Body)
    (seen : call.reader.lastSeen = call.seen) :
    (call.perform (.deliver message)).reader.lastSeen =
      (call.perform (.deliver message)).seen := by
  simp only [perform]
  rw [Reader.receive_lastSeen]
  cases call.reader.applies message with
  | true => simp [RebuildCall.seen]
  | false =>
      rw [RebuildCall.seen] at seen ⊢
      simpa using seen

private theorem looping_poll (call : RebuildCall) (seen : call.reader.lastSeen = call.seen)
    (goesOn : ∀ poll ∈ call.polls, poll.GoesOn call.deadline) (unclosed : call.closes = 0)
    (few : call.polls.length + 1 ≤ maxPolls)
    (spaced : (call.polls.length : ℚ) ≤ 50 * (call.clock - (call.deadline - rebuildLimit))) :
    call.poll.Looping := by
  rw [poll]
  split
  · rename_i fresh
    rw [seen] at fresh
    split
    · rename_i late
      constructor
      · exact seen
      · refine ⟨⟨⟨call.polls, _, rfl, goesOn, fresh, late⟩, rfl⟩, ?_, ?_⟩
        · rw [leave, unclosed]
        · simpa [leave] using few
    · rename_i inTime
      constructor
      · exact seen
      · refine ⟨?_, unclosed, not_lt.mp inTime, ?_⟩
        · intro poll member
          rcases List.mem_append.mp member with before | now
          · exact goesOn poll before
          · rw [List.mem_singleton.mp now]
            exact ⟨fresh, not_lt.mp inTime⟩
        · rw [List.length_append, List.length_singleton]
          push_cast
          linarith
  · rename_i stale
    rw [seen] at stale
    constructor
    · exact seen
    · refine ⟨⟨call.polls, _, rfl, goesOn, stale⟩, ?_, ?_⟩
      · rw [leave, unclosed]
      · simpa [leave] using few

private theorem Placed.few {call : RebuildCall} {since : ℚ}
    (placed : call.Placed (.sleeping since)) :
    call.polls.length + 1 ≤ maxPolls := by
  rcases placed with ⟨-, -, inTime, spaced⟩
  have few : (call.polls.length : ℚ) ≤ 1501 := by
    rw [rebuildLimit] at spaced
    linarith
  have whole : call.polls.length ≤ 1501 := by exact_mod_cast few
  rw [maxPolls]
  omega

private theorem Looping.wake {call : RebuildCall} (looping : call.Looping)
    (rested : call.line.Rested call.clock) : call.poll.Looping := by
  have placed := looping.placed
  cases line : call.line with
  | sleeping since =>
      rw [line] at placed rested
      have slept : since + 0.02 ≤ call.clock := rested
      norm_num at slept
      apply looping_poll call looping.seen placed.1 placed.2.1 placed.few
      linarith [placed.2.2.2]
  | _ => simp [line, RebuildLine.Rested] at rested

private theorem Looping.kept {call : RebuildCall} {action : RebuildAction} (looping : call.Looping)
    (enabled : call.Enabled action) : (call.perform action).Looping := by
  cases action with
  | pass duration => exact ⟨looping.seen, looping.placed⟩
  | deliver message => exact ⟨seen_deliver call message looping.seen, looping.placed⟩
  | opened =>
      have placed := looping.placed
      rw [show call.line = .opening from enabled] at placed
      rcases placed with ⟨none, unclosed⟩
      apply looping_poll { call with deadline := call.clock + rebuildLimit } looping.seen _ unclosed
      · simp [none, maxPolls]
      · simp [none]
      · simp [none]
  | wake => exact looping.wake enabled
  | cancel =>
      have placed := looping.placed
      cases line : call.line with
      | sleeping since =>
          rw [line] at placed
          refine ⟨looping.seen, placed.1, ?_, Nat.le_of_succ_le placed.few⟩
          simp [perform, leave, placed.2.1]
      | _ => simp [Enabled, line, RebuildLine.isSleeping] at enabled
  | closed =>
      have placed := looping.placed
      cases line : call.line with
      | closing loopEnd =>
          rw [line] at placed
          simp only [perform, line]
          exact ⟨looping.seen, placed⟩
      | _ => simp [Enabled, line, RebuildLine.isClosing] at enabled

theorem Looping.of_reached {call : RebuildCall}
    (reached : rebuildCall.Reached TransitionSystem.anyStep call) : call.Looping :=
  reached.invariant Looping
    (fun _ first => by
      rcases first with ⟨began, rfl⟩
      exact ⟨rfl, rfl, rfl⟩)
    fun _ _ looping _ enabled => looping.kept enabled

theorem Looping.polls_le {call : RebuildCall} (looping : call.Looping) :
    call.polls.length ≤ maxPolls := by
  have placed := looping.placed
  cases line : call.line with
  | opening =>
      rw [line] at placed
      simp [placed.1]
  | sleeping since =>
      rw [line] at placed
      exact Nat.le_of_succ_le placed.few
  | closing loopEnd =>
      rw [line] at placed
      exact placed.2.2
  | ended loopEnd =>
      rw [line] at placed
      exact placed.2.2

theorem Looping.left {call : RebuildCall} (looping : call.Looping) {loopEnd : LoopEnd}
    (left : call.line.loopEnd = some loopEnd) :
    loopEnd.Follows call.deadline call.polls ∧ call.closes = 1 := by
  have placed := looping.placed
  cases line : call.line with
  | closing other =>
      rw [line] at placed left
      cases left
      exact ⟨placed.1, placed.2.1⟩
  | ended other =>
      rw [line] at placed left
      cases left
      exact ⟨placed.1, placed.2.1⟩
  | _ => simp [line, RebuildLine.loopEnd] at left

private theorem Looping.asleep {call : RebuildCall} (looping : call.Looping)
    (asleep : call.line.isSleeping = true) :
    (∀ poll ∈ call.polls, poll.GoesOn call.deadline) ∧ call.closes = 0 := by
  have placed := looping.placed
  cases line : call.line with
  | sleeping since =>
      rw [line] at placed
      exact ⟨placed.1, placed.2.1⟩
  | _ => simp [line, RebuildLine.isSleeping] at asleep

private theorem sleep_ends {call : RebuildCall} (asleep : call.line.isSleeping = true) :
    ∃ duration, call.Enabled (.pass duration) ∧
      (call.perform (.pass duration)).Enabled .wake := by
  cases line : call.line with
  | sleeping since =>
      refine ⟨max 0 (since + 0.02 - call.clock), le_max_left _ _, ?_⟩
      have enough := le_max_right 0 (since + 0.02 - call.clock)
      simp only [perform, Enabled, line, RebuildLine.Rested]
      linarith
  | _ => simp [line, RebuildLine.isSleeping] at asleep

end RebuildCall

/-- The loop ends within `maxPolls` turns, in the way that its polls say, and the reader is
closed once. -/
theorem rebuild_loop_ends {call : RebuildCall}
    (reached : rebuildCall.Reached TransitionSystem.anyStep call) :
    call.polls.length ≤ maxPolls ∧
    (call.line.isSleeping = true →
      (∀ poll ∈ call.polls, poll.GoesOn call.deadline) ∧ call.closes = 0 ∧
        ∃ duration, call.Enabled (.pass duration) ∧
          (call.perform (.pass duration)).Enabled .wake) ∧
    ∀ loopEnd, call.line.loopEnd = some loopEnd →
      (∀ message, loopEnd = .raised message ↔
        Overdue call.deadline call.polls ∧ message = rebuildError) ∧
      (loopEnd = .returned ↔ CaughtUp call.deadline call.polls) ∧
      (loopEnd = .cancelled ↔ ∀ poll ∈ call.polls, poll.GoesOn call.deadline) ∧
      call.closes = 1 := by
  have looping := RebuildCall.Looping.of_reached reached
  refine ⟨looping.polls_le, ?_, ?_⟩
  · intro asleep
    rcases looping.asleep asleep with ⟨goesOn, unclosed⟩
    exact ⟨goesOn, unclosed, RebuildCall.sleep_ends asleep⟩
  · intro loopEnd left
    rcases looping.left left with ⟨follows, closed⟩
    refine ⟨?_, LoopEnd.follows_iff follows .returned, LoopEnd.follows_iff follows .cancelled,
      closed⟩
    intro message
    exact LoopEnd.follows_iff follows (.raised message)

/-- An entry is applied while the loop oversleeps its deadline. -/
theorem busy_writer_raises : ∃ call : RebuildCall,
    rebuildCall.Reached TransitionSystem.anyStep call ∧
      call.line = .ended (.raised rebuildError) ∧ call.closes = 1 ∧
        Overdue call.deadline call.polls := by
  have reached : rebuildCall.Reached TransitionSystem.anyStep _ :=
    .of_isSome_run rebuildCall TransitionSystem.anyStep (.start ⟨0, rfl⟩)
      [.pass 0.1, .opened, .pass 0.02, .wake, .pass 31,
        .deliver aliceFunded.wire, .pass 0.1, .wake, .closed]
      (by decide +kernel)
  have ends := (rebuild_loop_ends reached).2.2 (.raised rebuildError) (by decide +kernel)
  exact ⟨_, reached, by decide +kernel, ends.2.2.2, ((ends.1 rebuildError).mp rfl).1⟩

end AmqpApps.Ledger
