import AmqpApps.Foundation.KeyedBags
import AmqpApps.Ledger.Projections

/-! # Three views of one journal

While every send to the journal is confirmed, the writer has applied exactly
what the broker has stored, whatever the order, but for the sends that have not
returned yet. With none of these left, the writer's dictionary is the one a
rebuild would make, and every projection of the whole journal agrees with it.
-/

namespace AmqpApps.Ledger

def outstanding (calls : Multiset Call) : Multiset EntryPosted :=
  calls.bind fun call => Multiset.ofList call.sending.entries

/-- A send to the journal neither raises nor is cut short, and a writer that
starts has read the journal to its end. -/
def JournalConfirmed (state : State) : Action → Prop
  | .fail call => call.sending.entries = []
  | .crash => outstanding state.calls = 0
  | .start length => state.journal.length ≤ length
  | _ => True

instance (state : State) (action : Action) : Decidable (JournalConfirmed state action) := by
  rcases action with ⟨⟩ <;> unfold JournalConfirmed <;> infer_instance

/-- What a call has had stored while its send has not returned. -/
def Call.unreturned (call : Call) : Multiset EntryPosted :=
  if call.stored then Multiset.ofList call.sending.entries else 0

private theorem outstanding_eq_zero {calls : Multiset Call} :
    outstanding calls = 0 ↔ ∀ call ∈ calls, call.sending.entries = [] := by
  constructor
  · intro quiet call member
    apply List.eq_nil_iff_forall_not_mem.mpr
    intro entry sent
    have sending : entry ∈ outstanding calls := Multiset.mem_bind.mpr ⟨call, member, sent⟩
    simp [quiet] at sending
  · intro silent
    apply Multiset.eq_zero_of_forall_notMem
    intro entry sending
    rcases Multiset.mem_bind.mp sending with ⟨call, member, sent⟩
    simp [silent call member] at sent

private theorem nothing_unreturned {calls : Multiset Call} (quiet : outstanding calls = 0) :
    calls.bind Call.unreturned = 0 := by
  apply Multiset.eq_zero_of_forall_notMem
  intro entry held
  rcases Multiset.mem_bind.mp held with ⟨call, member, stored⟩
  simp [Call.unreturned, outstanding_eq_zero.mp quiet call member] at stored

private theorem nothing_unstored {calls : Multiset Call} (quiet : outstanding calls = 0) :
    unstored calls = 0 := by
  apply Multiset.eq_zero_of_forall_notMem
  intro entry held
  rcases Multiset.mem_bind.mp held with ⟨call, kept, sent⟩
  simp [outstanding_eq_zero.mp quiet call (Multiset.mem_filter.mp kept).1] at sent

/-! ## What one resumption applies -/

structure LedgerModule.Applied (ledger : LedgerModule) (applied : List EntryPosted) : Prop where
  accounts : ledger.balances.accounts = Tally.addAll ∅ (applied.map EntryPosted.line)
  counted : ledger.balances.replayed + ledger.posted = applied.length

namespace LedgerModule.Applied

variable {ledger : LedgerModule} {applied : List EntryPosted}

private theorem start (journal : List EntryPosted) :
    (LedgerModule.start journal).Applied journal where
  accounts := by simp [LedgerModule.start, Balances.readThrough_eq]
  counted := by simp [LedgerModule.start, Balances.readThrough_eq]

private theorem postReturned (sofar : ledger.Applied applied) (entry : EntryPosted) :
    (ledger.postReturned entry).Applied (applied ++ [entry]) where
  accounts := by
    rw [LedgerModule.postReturned, Balances.apply, sofar.accounts, List.map_append,
      Tally.addAll_append]
    rfl
  counted := by
    have counted := sofar.counted
    simp only [LedgerModule.postReturned, Balances.apply, List.length_append,
      List.length_singleton]
    omega

private theorem resume (sofar : ledger.Applied applied) (entryId : String) (sending : Sending) :
    (ledger.resume entryId sending).1.Applied (applied ++ sending.entries) := by
  cases sending with
  | opening account amountMinor sent => exact sofar.postReturned _
  | debit transfer sent => exact sofar.postReturned _
  | credit transfer sent => exact sofar.postReturned _
  | rejection rejected => simpa [LedgerModule.resume, Sending.entries] using sofar

private theorem apply (sofar : ledger.Applied applied) (transfer : Transfer) (entryId : String) :
    (ledger.apply transfer entryId).1.Applied applied := by
  rcases ledger.apply_cases transfer entryId with ⟨-, reason, ran⟩ | ⟨-, -, ran⟩ <;> rw [ran]
  · exact ⟨sofar.accounts, sofar.counted⟩
  · exact sofar

end LedgerModule.Applied

private theorem unreturned_resume (ledger : LedgerModule) (entryId : String) (sending : Sending) :
    (Multiset.ofList (ledger.resume entryId sending).2.toList).bind Call.unreturned = 0 := by
  cases sending <;> simp [LedgerModule.resume, Call.unreturned]

/-! ## The writer and its journal -/

/-- The writer has applied the journal, but for what its calls wait to hear of. -/
structure Recorded (state : State) : Prop where
  nothingAdrift : state.adrift = 0
  stopped : state.writer = none → outstanding state.calls = 0
  applied : ∀ ledger, state.writer = some ledger → ∃ applied, ledger.Applied applied ∧
    Multiset.ofList state.journal = Multiset.ofList applied + state.calls.bind Call.unreturned

namespace Recorded

variable {state : State}

private theorem initial : Recorded State.initial where
  nothingAdrift := rfl
  stopped _ := rfl
  applied _ running := by cases running

private theorem unmoved (recorded : Recorded state) {later : State}
    (adrift : later.adrift = state.adrift) (writer : later.writer = state.writer)
    (journal : later.journal = state.journal)
    (quiet : state.writer = none → outstanding later.calls = 0)
    (calls : later.calls.bind Call.unreturned = state.calls.bind Call.unreturned) :
    Recorded later where
  nothingAdrift := by rw [adrift, recorded.nothingAdrift]
  stopped stopped := quiet (by rw [← writer, stopped])
  applied ledger running := by
    rw [journal, calls]
    exact recorded.applied ledger (by rw [← writer, running])

private theorem deliver (recorded : Recorded state) (transfer : Transfer) (entryId : String)
    (running : state.writer.isSome) :
    Recorded (state.perform (.deliver transfer entryId)) := by
  rcases Option.isSome_iff_exists.mp running with ⟨ledger, running⟩
  rcases recorded.applied ledger running with ⟨applied, sofar, journal⟩
  simp only [State.perform, running]
  refine ⟨recorded.nothingAdrift, by rintro ⟨⟩, ?_⟩
  intro after same
  cases same
  refine ⟨applied, sofar.apply transfer entryId, ?_⟩
  simpa [Call.unreturned] using journal

private theorem store (recorded : Recorded state) {call : Call} (member : call ∈ state.calls)
    (notStored : call.stored = false) : Recorded (state.perform (.store call)) := by
  have same : outstanding (⟨call.sending, true⟩ ::ₘ state.calls.erase call) =
      outstanding state.calls := by
    rw [outstanding, outstanding, Multiset.cons_bind,
      bind_erase (fun call : Call => Multiset.ofList call.sending.entries) member]
  refine ⟨recorded.nothingAdrift, fun stopped => same.trans (recorded.stopped stopped), ?_⟩
  intro ledger running
  rcases recorded.applied ledger running with ⟨applied, sofar, journal⟩
  refine ⟨applied, sofar, ?_⟩
  rw [bind_erase Call.unreturned member, Call.unreturned, notStored] at journal
  simp only [State.perform, State.take, Multiset.cons_bind, Call.unreturned, if_true,
    ← Multiset.coe_add, journal, Bool.false_eq_true, if_false, zero_add]
  rw [add_assoc, add_comm _ (Multiset.ofList call.sending.entries)]

private theorem confirm (recorded : Recorded state) {call : Call} (entryId : String)
    (member : call ∈ state.calls) (stored : call.stored = true) :
    Recorded (state.perform (.confirm call entryId)) := by
  cases running : state.writer with
  | none =>
      have idle : state.perform (.confirm call entryId) = state := by
        simp [State.perform, running]
      rw [idle]
      exact recorded
  | some ledger =>
      rcases recorded.applied ledger running with ⟨applied, sofar, journal⟩
      simp only [State.perform, running]
      refine ⟨recorded.nothingAdrift, by rintro ⟨⟩, ?_⟩
      intro after same
      cases same
      refine ⟨applied ++ call.sending.entries, sofar.resume entryId call.sending, ?_⟩
      rw [bind_erase Call.unreturned member, Call.unreturned, stored, if_pos rfl] at journal
      rw [Multiset.add_bind, unreturned_resume, zero_add, ← Multiset.coe_add, journal,
        add_assoc]

private theorem fail (recorded : Recorded state) {call : Call} (member : call ∈ state.calls)
    (nothing : call.sending.entries = []) : Recorded (state.perform (.fail call)) := by
  have silent : call.unreturned = 0 := by simp [Call.unreturned, nothing]
  have left : (state.calls.erase call).bind Call.unreturned =
      state.calls.bind Call.unreturned := by
    rw [bind_erase Call.unreturned member, silent, zero_add]
  have quiet : state.writer = none → outstanding (state.calls.erase call) = 0 := by
    intro stopped
    have before := outstanding_eq_zero.mp (recorded.stopped stopped)
    exact outstanding_eq_zero.mpr fun other left => before other (Multiset.mem_of_mem_erase left)
  cases stored : call.stored <;>
    simp only [State.perform, State.stray, stored, nothing, Multiset.coe_nil, zero_add,
      Bool.false_eq_true, if_false, if_true] <;>
    exact recorded.unmoved rfl rfl rfl quiet left

private theorem start (recorded : Recorded state) {length : Nat}
    (whole : state.journal.length ≤ length) (stopped : state.writer = none) :
    Recorded (state.perform (.start length)) := by
  have read : state.journal.take length = state.journal := List.take_of_length_le whole
  refine ⟨recorded.nothingAdrift, by rintro ⟨⟩, ?_⟩
  intro ledger running
  cases running
  refine ⟨state.journal, by rw [read]; exact .start state.journal, ?_⟩
  have silent := nothing_unreturned (recorded.stopped stopped)
  simp [State.perform, silent]

private theorem kept (state : State) (action : Action) (recorded : Recorded state)
    (confirmed : JournalConfirmed state action) (enabled : state.Enabled action) :
    Recorded (state.perform action) := by
  cases action with
  | request id from_ to_ amountMinor description =>
      exact recorded.unmoved rfl rfl rfl recorded.stopped rfl
  | redeliver transfer => exact recorded.unmoved rfl rfl rfl recorded.stopped rfl
  | deliver transfer entryId => exact recorded.deliver transfer entryId enabled.2
  | fund account amountMinor entryId =>
      refine recorded.unmoved rfl rfl rfl ?_ ?_
      · intro stopped
        have running : state.writer.isSome := enabled
        simp [stopped] at running
      · simp [State.perform, LedgerModule.fund, Call.unreturned]
  | store call => exact recorded.store enabled.1 enabled.2
  | confirm call entryId => exact recorded.confirm entryId enabled.1 enabled.2
  | fail call => exact recorded.fail enabled confirmed
  | storeLate entry =>
      have adrift : entry ∈ state.adrift := enabled
      simp [recorded.nothingAdrift] at adrift
  | lose entry =>
      have adrift : entry ∈ state.adrift := enabled
      simp [recorded.nothingAdrift] at adrift
  | crash =>
      have nothingLeft : unstored state.calls + state.adrift = 0 := by
        rw [nothing_unstored confirmed, recorded.nothingAdrift, add_zero]
      exact ⟨nothingLeft, fun _ => rfl, by rintro _ ⟨⟩⟩
  | start length => exact recorded.start confirmed enabled
  | notice rejection => exact recorded.unmoved rfl rfl rfl recorded.stopped rfl

private theorem of_reached (reached : system.Reached JournalConfirmed state) : Recorded state :=
  reached.invariant Recorded (fun state first => by cases first; exact .initial) kept

/-- A writer that waits for no send has applied the journal. -/
theorem settled (recorded : Recorded state) {ledger : LedgerModule}
    (running : state.writer = some ledger) (quiet : outstanding state.calls = 0) :
    ledger.Applied state.journal := by
  rcases recorded.applied ledger running with ⟨applied, sofar, journal⟩
  rw [nothing_unreturned quiet, add_zero] at journal
  have same : state.journal.Perm applied := Multiset.coe_eq_coe.mp journal
  refine ⟨?_, sofar.counted.trans same.length_eq.symm⟩
  rw [sofar.accounts]
  exact (Tally.addAll_perm ∅ (same.map EntryPosted.line)).symm

end Recorded

/-! ## A rebuild from the wire -/

/-- `rebuilt_from`, handed the whole journal, makes the writer's dictionary of it. -/
theorem LedgerModule.Applied.sameDict {ledger : LedgerModule}
    {deliveries : List (Delivery EntryPosted)}
    (applied : ledger.Applied (deliveries.map Delivery.message)) :
    ∃ balances, replayEach Balances.replay Balances.new
        ((onWire deliveries).map Delivery.message) = some balances ∧
      SameDict ledger.snapshot balances.snapshot ∧ balances.replayed = deliveries.length := by
  have written : ledger.snapshot =
      (Balances.readThrough (deliveries.map fun entry => entry.message.line)).snapshot := by
    rw [snapshot, Balances.snapshot, applied.accounts, List.map_map, Balances.snapshot,
      Balances.readThrough_eq]
    rfl
  rw [written]
  exact replayEach_onWire deliveries

/-! ## All three -/

def Audience.Confirmed (state : Audience) : AudienceAction → Prop
  | .ledger action => JournalConfirmed state.ledger action
  | _ => True

instance (state : Audience) (action : AudienceAction) : Decidable (state.Confirmed action) := by
  rcases action with ⟨⟩ <;> unfold Audience.Confirmed <;> infer_instance

private theorem Audience.recorded {state : Audience}
    (reached : audience.Reached Audience.Confirmed state) :
    Recorded state.ledger := by
  apply Recorded.of_reached
  apply reached.project Audience.ledger
  · intro state first
    rw [show state = Audience.initial from first]
    rfl
  · intro state action confirmed enabled
    cases action with
    | ledger action => exact .inr ⟨action, confirmed, enabled, rfl⟩
    | _ => exact .inl rfl

private theorem Audience.faithful {state : Audience}
    (reached : audience.Reached Audience.Confirmed state) :
    ∀ subscription ∈ state.subscriptions, subscription.Faithful state.ledger.journal := by
  apply reached.invariant
    (fun state => ∀ subscription ∈ state.subscriptions,
      subscription.Faithful state.ledger.journal)
  · intro state first
    rw [show state = Audience.initial from first]
    nofun
  · intro state action before _ _
    exact state.faithful_kept action before

/-- Whenever no send to the journal is outstanding, the running writer holds
the very dictionary that a restarted one would hold and that `rebuilt_from`
makes of the messages; and a projection that has read the whole journal agrees
with it account by account and entry by entry. -/
theorem writer_and_readers_agree {state : Audience} {ledger : LedgerModule}
    (reached : audience.Reached Audience.Confirmed state)
    (running : state.ledger.writer = some ledger)
    (quiet : outstanding state.ledger.calls = 0) :
    ledger.snapshot = (LedgerModule.start state.ledger.journal).snapshot ∧
    (∀ deliveries : List (Delivery EntryPosted),
      deliveries.map Delivery.message = state.ledger.journal →
        ∃ balances, replayEach Balances.replay Balances.new
            ((onWire deliveries).map Delivery.message) = some balances ∧
          SameDict ledger.snapshot balances.snapshot ∧
          balances.replayed = deliveries.length) ∧
    ledger.balances.replayed + ledger.posted = state.ledger.journal.length ∧
    ∀ subscription ∈ state.subscriptions, subscription.first = 0 →
      subscription.next = state.ledger.journal.length →
      (∀ account, subscription.projection.balanceOf account = ledger.balanceOf account ∧
        subscription.projection.balanceOf account = ledger.snapshot.of account) ∧
      (∀ account, subscription.projection.statementOf account =
        state.ledger.journal.filter fun entry => entry.account = account) ∧
      (∀ entry ∈ state.ledger.journal,
        ∃! account, entry ∈ subscription.projection.statementOf account) ∧
      subscription.projection.entries = state.ledger.journal.length := by
  have applied := (Audience.recorded reached).settled running quiet
  refine ⟨?_, ?_, applied.counted, ?_⟩
  · rw [LedgerModule.snapshot, LedgerModule.snapshot, Balances.snapshot, Balances.snapshot,
      applied.accounts, (LedgerModule.Applied.start state.ledger.journal).accounts]
  · intro deliveries whole
    rw [← whole] at applied
    exact applied.sameDict
  · intro subscription member fromTheFirst toTheLast
    have read := (Audience.faithful reached subscription member).whole fromTheFirst toTheLast
    rw [read]
    refine ⟨?_, StatementProjection.statementOf_readThrough _, ?_,
      StatementProjection.entries_readThrough _⟩
    · intro account
      have same : (StatementProjection.readThrough state.ledger.journal).balanceOf account =
          ledger.balanceOf account := by
        rw [StatementProjection.balanceOf_readThrough, LedgerModule.balanceOf, Balances.of,
          applied.accounts, Tally.of_addAll, Tally.of_empty, zero_add, List.map_map]
        rfl
      exact ⟨same, same⟩
    · intro entry posted
      refine ⟨entry.account, ?_, ?_⟩
      · simp [StatementProjection.statementOf_readThrough, posted]
      · intro account filed
        have about : entry.account = account := by
          simpa [StatementProjection.statementOf_readThrough, posted] using filed
        exact about.symm

/-- Two fundings confirmed in the other order than they were stored, a writer
restarted, a transfer, and a projection that reads along. -/
def readAlong : List AudienceAction :=
  let fundAlice := Sending.opening "alice" 100 "E-1"
  let fundBob := Sending.opening "bob" 5 "E-2"
  let rent := requestTransfer "1" "alice" "bob" 60 "rent"
  [.ledger (.start 0), .subscribe true,
    .ledger (.fund "alice" 100 "E-1"), .ledger (.fund "bob" 5 "E-2"),
    .ledger (.store ⟨fundAlice, false⟩), .ledger (.store ⟨fundBob, false⟩), .deliver 0,
    .ledger (.confirm ⟨fundBob, true⟩ "E-3"), .ledger (.confirm ⟨fundAlice, true⟩ "E-4"),
    .ledger .crash, .ledger (.start 2), .ledger (.request "1" "alice" "bob" 60 "rent"),
    .ledger (.deliver rent "E-5"), .ledger (.store ⟨.debit rent "E-5", false⟩), .deliver 0,
    .ledger (.confirm ⟨.debit rent "E-5", true⟩ "E-6"),
    .ledger (.store ⟨.credit rent "E-6", false⟩),
    .ledger (.confirm ⟨.credit rent "E-6", true⟩ "E-7"), .deliver 0, .deliver 0]

theorem read_along_agrees : ∃ (state : Audience) (ledger : LedgerModule),
    state.ledger.writer = some ledger ∧ ledger.balanceOf "bob" = 65 ∧
      ledger.snapshot = (LedgerModule.start state.ledger.journal).snapshot ∧
      ledger.balances.replayed + ledger.posted = 4 ∧
      ∃ subscription ∈ state.subscriptions,
        subscription.projection.balanceOf "bob" = ledger.snapshot.of "bob" ∧
        subscription.projection.entries = 4 := by
  have reached : audience.Reached Audience.Confirmed _ := .of_run readAlong (.start rfl) rfl
  rcases writer_and_readers_agree reached rfl (by decide) with ⟨restarted, -, counted, readers⟩
  rcases readers _ List.mem_cons_self rfl rfl with ⟨balances, -, -, entries⟩
  exact ⟨_, _, rfl, rfl, restarted, counted, _, List.mem_cons_self, (balances "bob").2, entries⟩

end AmqpApps.Ledger
