import AmqpApps.Ledger.Balances
import Mathlib.Tactic.Linarith
import Mathlib.Tactic.NormNum
import Mathlib.Algebra.Order.Ring.Rat

/-! # The start-up rebuild

`Balances.rebuilt_from` cannot ask a stream for its end. It hands every entry
to `replay`, which notes the time, and polls until nothing has been noted for
`QUIET_PERIOD`. Time passes at awaits only, so the two clock reads of one turn
of the loop are one poll. `reader.close()` hands nothing more to `replay`.
-/

namespace AmqpApps.Ledger

def quietPeriod : ℚ := 0.4

def rebuildLimit : ℚ := 30

/-- The times around one call of `rebuilt_from`: when it was made, when
`read_stream` returned, how long each `asyncio.sleep(0.02)` took, and which of
them, if any, was cancelled. -/
structure Schedule where
  began : ℚ
  opened : ℚ
  sleep : ℕ → ℚ
  cancelled : Option ℕ
  began_le_opened : began ≤ opened
  sleep_long : ∀ poll, 0.02 ≤ sleep poll

namespace Schedule

/-- The first poll follows `read_stream`, each later one a sleep. -/
def pollTime (schedule : Schedule) : ℕ → ℚ
  | 0 => schedule.opened
  | poll + 1 => schedule.pollTime poll + schedule.sleep poll

def deadline (schedule : Schedule) : ℚ := schedule.opened + rebuildLimit

private theorem pollTime_lt_succ (schedule : Schedule) (poll : ℕ) :
    schedule.pollTime poll < schedule.pollTime (poll + 1) := by
  have long := schedule.sleep_long poll
  norm_num at long
  simp only [pollTime]
  linarith

theorem pollTime_mono (schedule : Schedule) {earlier later : ℕ}
    (order : earlier ≤ later) : schedule.pollTime earlier ≤ schedule.pollTime later :=
  monotone_nat_of_le_succ (fun poll => (schedule.pollTime_lt_succ poll).le) order

private theorem pollTime_lower (schedule : Schedule) (poll : ℕ) :
    schedule.opened + poll * (1 / 50) ≤ schedule.pollTime poll := by
  induction poll with
  | zero => simp [pollTime]
  | succ poll induction =>
      have long := schedule.sleep_long poll
      norm_num at long
      push_cast
      simp only [pollTime]
      linarith

end Schedule

/-! ## The loop -/

/-- What the closure `replay` has made of the deliveries so far: the state it
updates, its `last_seen`, and whether it raised, which stops the reader. -/
structure Reader (State : Type u) where
  state : State
  lastSeen : ℚ
  stopped : Bool

inductive Outcome (State : Type u)
  | returned (state : State)
  | raised
  | cancelled

/-- The `while` loop from the given poll on, for at most `fuel` polls. -/
def pollFrom {State : Type u} (schedule : Schedule) (readerAt : ℚ → Reader State) :
    (fuel poll : ℕ) → Option (Outcome State)
  | 0, _ => none
  | fuel + 1, poll =>
      let now := schedule.pollTime poll
      if now - (readerAt now).lastSeen < quietPeriod then
        if now > schedule.deadline then some .raised
        else if schedule.cancelled = some poll then some .cancelled
        else pollFrom schedule readerAt fuel (poll + 1)
      else some (.returned (readerAt now).state)

/-- After this many polls of at least 20 ms the deadline has passed. -/
def maxPolls : ℕ := 1502

def rebuiltFrom {State : Type u} (schedule : Schedule) (readerAt : ℚ → Reader State) :
    Option (Outcome State) :=
  pollFrom schedule readerAt maxPolls 0

section Loop

variable {State : Type u} {schedule : Schedule} {readerAt : ℚ → Reader State}

/-- The loop condition fails at this poll. -/
def Quiet (schedule : Schedule) (readerAt : ℚ → Reader State) (poll : ℕ) : Prop :=
  quietPeriod ≤ schedule.pollTime poll - (readerAt (schedule.pollTime poll)).lastSeen

/-- The loop ends before its fuel does when the last poll is past the deadline. -/
theorem pollFrom_ne_none {fuel poll : ℕ}
    (enough : schedule.deadline < schedule.pollTime (poll + fuel)) :
    pollFrom schedule readerAt (fuel + 1) poll ≠ none := by
  induction fuel generalizing poll with
  | zero =>
      have late : schedule.pollTime poll > schedule.deadline := enough
      simp only [pollFrom, late, if_true]
      split <;> simp
  | succ fuel induction =>
      have next : pollFrom schedule readerAt (fuel + 1) (poll + 1) ≠ none := by
        apply induction
        rwa [Nat.add_right_comm, Nat.add_assoc]
      rw [pollFrom]
      split
      · split
        · simp
        · split
          · simp
          · exact next
      · simp

private theorem rebuiltFrom_ne_none (schedule : Schedule) (readerAt : ℚ → Reader State) :
    rebuiltFrom schedule readerAt ≠ none := by
  change pollFrom schedule readerAt (1501 + 1) 0 ≠ none
  apply pollFrom_ne_none
  have lower := schedule.pollTime_lower 1501
  simp only [Schedule.deadline, rebuildLimit, Nat.zero_add]
  norm_num at lower
  linarith

structure Continues (schedule : Schedule) (readerAt : ℚ → Reader State) (poll : ℕ) : Prop where
  busy : ¬Quiet schedule readerAt poll
  inTime : schedule.pollTime poll ≤ schedule.deadline
  uncancelled : schedule.cancelled ≠ some poll

def EndsAt (schedule : Schedule) (readerAt : ℚ → Reader State) (poll : ℕ) :
    Outcome State → Prop
  | .returned state =>
      Quiet schedule readerAt poll ∧ state = (readerAt (schedule.pollTime poll)).state
  | .raised => ¬Quiet schedule readerAt poll ∧ schedule.deadline < schedule.pollTime poll
  | .cancelled => ¬Quiet schedule readerAt poll ∧ schedule.cancelled = some poll

private theorem pollFrom_some {fuel poll : ℕ} {outcome : Outcome State}
    (ended : pollFrom schedule readerAt fuel poll = some outcome) :
    ∃ last, EndsAt schedule readerAt last outcome ∧
      ∀ earlier, poll ≤ earlier → earlier < last → Continues schedule readerAt earlier := by
  induction fuel generalizing poll with
  | zero => cases ended
  | succ fuel induction =>
      simp only [pollFrom] at ended
      split at ended
      · rename_i busy
        have notQuiet : ¬Quiet schedule readerAt poll := not_le.mpr busy
        split at ended
        · rename_i late
          cases ended
          exact ⟨poll, ⟨notQuiet, late⟩, fun _ _ _ => by omega⟩
        · rename_i inTime
          split at ended
          · rename_i interrupted
            cases ended
            exact ⟨poll, ⟨notQuiet, interrupted⟩, fun _ _ _ => by omega⟩
          · rename_i uncancelled
            rcases induction ended with ⟨last, ends, continues⟩
            refine ⟨last, ends, ?_⟩
            intro earlier after before
            rcases Nat.eq_or_lt_of_le after with equal | later
            · exact equal ▸ ⟨notQuiet, not_lt.mp inTime, uncancelled⟩
            · exact continues earlier later before
      · rename_i quiet
        cases ended
        exact ⟨poll, ⟨not_lt.mp quiet, rfl⟩, fun _ _ _ => by omega⟩

/-- The deadline passes, or the call is cancelled, and no poll has been silent before. -/
def Interrupted (schedule : Schedule) (silent : ℕ → Prop) : Prop :=
  ∃ poll, (schedule.deadline < schedule.pollTime poll ∨ schedule.cancelled = some poll) ∧
    ∀ earlier ≤ poll, ¬silent earlier

/-- The loop returns at the first quiet poll, unless it is left before that. -/
theorem rebuiltFrom_cases (schedule : Schedule) (readerAt : ℚ → Reader State) :
    (∃ outcome, rebuiltFrom schedule readerAt = some outcome ∧
        (∀ state, outcome ≠ .returned state) ∧ Interrupted schedule (Quiet schedule readerAt)) ∨
      ∃ last, Quiet schedule readerAt last ∧
        (∀ earlier < last, Continues schedule readerAt earlier) ∧
        rebuiltFrom schedule readerAt =
          some (.returned (readerAt (schedule.pollTime last)).state) := by
  rcases Option.ne_none_iff_exists'.mp (rebuiltFrom_ne_none schedule readerAt) with
    ⟨outcome, ended⟩
  rcases pollFrom_some ended with ⟨last, ends, continues⟩
  cases outcome with
  | returned state =>
      refine .inr ⟨last, ends.1, fun earlier => continues earlier (Nat.zero_le _), ?_⟩
      rw [ended, ends.2]
  | raised | cancelled =>
      refine .inl ⟨_, ended, nofun, last, ?_, ?_⟩
      · first | exact .inl ends.2 | exact .inr ends.2
      · intro earlier before
        rcases Nat.eq_or_lt_of_le before with equal | sooner
        · exact equal ▸ ends.1
        · exact (continues earlier (Nat.zero_le _) sooner).busy

theorem not_interrupted {last : ℕ} (quiet : Quiet schedule readerAt last)
    (continues : ∀ earlier < last, Continues schedule readerAt earlier) :
    ¬Interrupted schedule (Quiet schedule readerAt) := by
  rintro ⟨poll, left, busy⟩
  have sooner : poll < last := by
    by_contra after
    exact busy last (not_lt.mp after) quiet
  rcases left with late | stopped
  · exact absurd late (not_lt.mpr (continues poll sooner).inTime)
  · exact (continues poll sooner).uncancelled stopped

private theorem not_interrupted_of_inTime (uncancelled : schedule.cancelled = none)
    (inTime : ∀ now, (readerAt now).lastSeen ≤ schedule.deadline - 1) :
    ¬Interrupted schedule (Quiet schedule readerAt) := by
  rintro ⟨poll, late | stopped, busy⟩
  · have fresh := busy poll le_rfl
    have seen := inTime (schedule.pollTime poll)
    simp only [Quiet, quietPeriod, not_le] at fresh
    norm_num at fresh
    linarith
  · rw [uncancelled] at stopped
    cases stopped

end Loop

/-! ## Reading a finite journal -/

/-- A message of the journal and the time at which `replay` is called with it. -/
structure Delivery (Message : Type u) where
  time : ℚ
  message : Message

section Deliveries

variable {State : Type u} {Message : Type v}
variable (replay : State → Message → State × Option PyError)

/-- One call of `replay`. The first one that raises stops the reader. -/
def Reader.receive (reader : Reader State) (delivery : Delivery Message) : Reader State :=
  if reader.stopped then reader
  else
    match replay reader.state delivery.message with
    | (state, none) => ⟨state, delivery.time, false⟩
    | (state, some _) => { reader with state := state, stopped := true }

def arrived (deliveries : List (Delivery Message)) (now : ℚ) : List (Delivery Message) :=
  deliveries.takeWhile fun delivery => decide (delivery.time ≤ now)

def readerOf (initial : State) (began : ℚ) (deliveries : List (Delivery Message))
    (now : ℚ) : Reader State :=
  (arrived deliveries now).foldl (Reader.receive replay) ⟨initial, began, false⟩

/-- The time of the last of the deliveries, or of the call when there is none. -/
def lastTime (began : ℚ) (deliveries : List (Delivery Message)) : ℚ :=
  (deliveries.getLast?.map Delivery.time).getD began

/-- The state after `replay` has been called with every message, if no call raises. -/
def replayEach (initial : State) (messages : List Message) : Option State :=
  messages.foldlM (fun state message => completed (replay state message)) initial

variable {replay}

theorem replayEach_concat (initial : State) (messages : List Message) (message : Message) :
    replayEach replay initial (messages ++ [message]) =
      (replayEach replay initial messages).bind fun state => completed (replay state message) := by
  rw [replayEach, List.foldlM_append]
  cases replayed : messages.foldlM (fun state message => completed (replay state message)) initial
    with
  | none => simp [replayEach, replayed]
  | some state => simp [replayEach, replayed]

theorem replayEach_earlier {initial : State} {messages part : List Message}
    (early : part <+: messages) (replayed : (replayEach replay initial messages).isSome = true) :
    (replayEach replay initial part).isSome = true := by
  rcases early with ⟨rest, rfl⟩
  rw [replayEach, List.foldlM_append] at replayed
  exact Option.isSome_of_isSome_bind replayed

/-- While no call raises, the reader has replayed what has arrived and
remembers when the last of it came. -/
theorem receive_each {initial final : State} (began : ℚ) {deliveries : List (Delivery Message)}
    (replayed : replayEach replay initial (deliveries.map Delivery.message) = some final) :
    deliveries.foldl (Reader.receive replay) ⟨initial, began, false⟩ =
      ⟨final, lastTime began deliveries, false⟩ := by
  induction deliveries using List.reverseRecOn generalizing final with
  | nil =>
      cases replayed
      rfl
  | append_singleton earlier last induction =>
      rw [List.map_append, List.map_singleton, replayEach_concat] at replayed
      rcases Option.bind_eq_some_iff.mp replayed with ⟨sofar, before, now⟩
      rw [List.foldl_append, induction before]
      cases result : replay sofar last.message with
      | mk state error =>
          rw [result] at now
          cases error with
          | none =>
              cases now
              simp [Reader.receive, lastTime, result]
          | some error => cases now

private theorem receive_stopped (reader : Reader State) (stopped : reader.stopped = true)
    (deliveries : List (Delivery Message)) :
    deliveries.foldl (Reader.receive replay) reader = reader := by
  induction deliveries with
  | nil => rfl
  | cons delivery rest induction => simpa [Reader.receive, stopped] using induction

private theorem receive_raised {state : State} {lastSeen : ℚ} {delivery : Delivery Message}
    (raised : completed (replay state delivery.message) = none) :
    Reader.receive replay ⟨state, lastSeen, false⟩ delivery =
      ⟨(replay state delivery.message).1, lastSeen, true⟩ := by
  cases result : replay state delivery.message with
  | mk after error =>
      rw [result] at raised
      cases error with
      | none => cases raised
      | some error => simp [Reader.receive, result]

private theorem receive_lastSeen_le (bound : ℚ) (deliveries : List (Delivery Message))
    (bounded : ∀ delivery ∈ deliveries, delivery.time ≤ bound)
    (reader : Reader State) (start : reader.lastSeen ≤ bound) :
    (deliveries.foldl (Reader.receive replay) reader).lastSeen ≤ bound := by
  induction deliveries generalizing reader with
  | nil => exact start
  | cons delivery rest induction =>
      apply induction fun other member => bounded other (List.mem_cons_of_mem _ member)
      rw [Reader.receive]
      split
      · exact start
      · split
        · exact bounded delivery List.mem_cons_self
        · exact start

variable {schedule : Schedule} {initial : State} {deliveries : List (Delivery Message)}

/-- The last entry comes at least a second before `REBUILD_LIMIT` has passed. -/
def InTime (schedule : Schedule) (deliveries : List (Delivery Message)) : Prop :=
  ∀ delivery ∈ deliveries, delivery.time ≤ schedule.deadline - 1

/-- At this poll nothing of the deliveries has come for a `QUIET_PERIOD`, counted from the call
if nothing has come at all. -/
def Silent (schedule : Schedule) (deliveries : List (Delivery Message)) (poll : ℕ) : Prop :=
  quietPeriod ≤ schedule.pollTime poll -
    lastTime schedule.began (arrived deliveries (schedule.pollTime poll))

/-- No poll finds a silence while an entry is still to come. -/
def Steady (schedule : Schedule) (deliveries : List (Delivery Message)) : Prop :=
  ∀ poll, (∃ delivery ∈ deliveries, schedule.pollTime poll < delivery.time) →
    ¬Silent schedule deliveries poll

theorem readerOf_not_interrupted (uncancelled : schedule.cancelled = none)
    (inTime : InTime schedule deliveries) :
    ¬Interrupted schedule
      (Quiet schedule (readerOf replay initial schedule.began deliveries)) := by
  apply not_interrupted_of_inTime uncancelled
  intro now
  apply receive_lastSeen_le
  · intro delivery member
    exact inTime delivery (List.takeWhile_subset _ member)
  · have order := schedule.began_le_opened
    simp only [Schedule.deadline, rebuildLimit]
    linarith

/-- With no silence before its end, a journal every message of which can be
replayed has been replayed whole when it is quiet. -/
theorem replayed_whole (steady : Steady schedule deliveries) {final : State}
    (replayed : replayEach replay initial (deliveries.map Delivery.message) = some final)
    {poll : ℕ} (quiet : Quiet schedule (readerOf replay initial schedule.began deliveries) poll) :
    readerOf replay initial schedule.began deliveries (schedule.pollTime poll) =
      ⟨final, lastTime schedule.began deliveries, false⟩ := by
  have early : arrived deliveries (schedule.pollTime poll) <+: deliveries :=
    List.takeWhile_prefix _
  rcases Option.isSome_iff_exists.mp (replayEach_earlier
    (early.map Delivery.message) (by rw [replayed]; rfl)) with ⟨sofar, before⟩
  have everything : arrived deliveries (schedule.pollTime poll) = deliveries := by
    apply List.takeWhile_eq_self_iff.mpr
    intro delivery member
    by_contra outstanding
    apply steady poll ⟨delivery, member, by simpa using outstanding⟩
    rw [Quiet, readerOf, receive_each _ before] at quiet
    exact quiet
  rw [readerOf, everything, receive_each _ replayed]

theorem rebuiltFrom_present (uncancelled : schedule.cancelled = none)
    (present : ∀ delivery ∈ deliveries, delivery.time ≤ schedule.opened) :
    rebuiltFrom schedule (readerOf replay initial schedule.began deliveries) =
      some (.returned (deliveries.foldl (Reader.receive replay)
        ⟨initial, schedule.began, false⟩).state) := by
  have inTime : InTime schedule deliveries := by
    intro delivery member
    have opened := present delivery member
    simp only [Schedule.deadline, rebuildLimit]
    linarith
  rcases rebuiltFrom_cases schedule (readerOf replay initial schedule.began deliveries) with
    ⟨outcome, -, -, interrupted⟩ | ⟨last, -, -, returned⟩
  · exact absurd interrupted (readerOf_not_interrupted uncancelled inTime)
  · have everything : arrived deliveries (schedule.pollTime last) = deliveries := by
      apply List.takeWhile_eq_self_iff.mpr
      intro delivery member
      have polled : schedule.opened ≤ schedule.pollTime last :=
        schedule.pollTime_mono (Nat.zero_le last)
      exact decide_eq_true ((present delivery member).trans polled)
    rw [returned, readerOf, everything]

/-! ## What is read of a journal -/

/-- The longest part of the deliveries, from the first one on, that is readable. -/
structure LongestPart (readable : List Message → Prop)
    (part deliveries : List (Delivery Message)) : Prop where
  early : part <+: deliveries
  isReadable : readable (part.map Delivery.message)
  longest : ∀ longer, longer <+: deliveries → readable (longer.map Delivery.message) →
    longer.length ≤ part.length

theorem exists_longestPart (readable : List Message → Prop) (empty : readable [])
    (deliveries : List (Delivery Message)) : ∃ part, LongestPart readable part deliveries := by
  induction deliveries using List.reverseRecOn with
  | nil => exact ⟨[], List.prefix_rfl, empty, fun longer early _ => early.length_le⟩
  | append_singleton earlier last induction =>
      by_cases whole : readable ((earlier ++ [last]).map Delivery.message)
      · exact ⟨_, List.prefix_rfl, whole, fun longer early _ => early.length_le⟩
      · rcases induction with ⟨part, early, partReadable, longest⟩
        refine ⟨part, early.trans (List.prefix_append _ _), partReadable, ?_⟩
        intro longer within longerReadable
        rcases List.prefix_concat_iff.mp within with same | shorter
        · exact absurd (same ▸ longerReadable) whole
        · exact longest longer shorter longerReadable

/-- The reader stops at the first message that it cannot replay, or never, and remembers when
the last came that it could. -/
theorem readerOf_lastSeen {part : List (Delivery Message)} (began now : ℚ)
    (read : LongestPart (fun messages => (replayEach replay initial messages).isSome = true)
      part deliveries) :
    (readerOf replay initial began deliveries now).lastSeen =
      lastTime began (arrived part now) := by
  rcases read with ⟨⟨rest, rfl⟩, readable, longest⟩
  have arriving : arrived part now <+: part := List.takeWhile_prefix _
  rcases Option.isSome_iff_exists.mp
    (replayEach_earlier (arriving.map Delivery.message) readable) with ⟨sofar, before⟩
  have reader := receive_each began before
  rw [readerOf, arrived, List.takeWhile_append]
  split
  · rename_i all
    have everything : arrived part now = part := arriving.eq_of_length all
    rw [everything] at reader before ⊢
    rw [List.foldl_append, reader]
    cases rest with
    | nil => rfl
    | cons next after =>
        rw [List.takeWhile_cons]
        split
        · have raised : completed (replay sofar next.message) = none := by
            apply Option.eq_none_iff_forall_ne_some.mpr
            intro state completes
            have more := longest (part ++ [next]) ⟨after, by simp⟩ (by
              rw [List.map_append, List.map_singleton, replayEach_concat, before]
              simp [completes])
            simp at more
          rw [List.foldl_cons, receive_raised raised, receive_stopped _ rfl]
        · rfl
  · rw [← arrived, reader]

end Deliveries

end AmqpApps.Ledger
