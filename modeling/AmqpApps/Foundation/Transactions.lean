import AmqpApps.Foundation.Runs
import AmqpApps.Foundation.UnitOfWork

/-! # Transactions in one step

Where every call of some code is atomic, its operations come down to what a reader of the
database can tell: that it has begun, and later that all its writes are there, or that it has
gone and left nothing.
-/

namespace AmqpApps

structure Transactions (Call : Type v) (Write : Type u) where
  /-- What has begun and is neither committed nor given up. -/
  underway : Multiset Call
  database : List (List Write)

inductive TransactionStep (Call : Type v)
  | start (call : Call)
  | commit (call : Call)
  | giveUp (call : Call)
deriving DecidableEq

namespace Transactions

variable {Call : Type v} {Write : Type u} {Key : Type w} [DecidableEq Call] [DecidableEq Key]

def Enabled (writes : Call → List Write) (key : Write → Option Key)
    (state : Transactions Call Write) : TransactionStep Call → Prop
  | .start _ => True
  | .commit call =>
      call ∈ state.underway ∧ Calls.KeysFree key (state.database ++ [writes call])
  | .giveUp call => call ∈ state.underway

def perform (writes : Call → List Write) (state : Transactions Call Write) :
    TransactionStep Call → Transactions Call Write
  | .start call => { state with underway := call ::ₘ state.underway }
  | .commit call =>
      { underway := state.underway.erase call
        database := state.database ++ [writes call] }
  | .giveUp call => { state with underway := state.underway.erase call }

end Transactions

variable {Call : Type v} {Write : Type u} {Key : Type w}

def transactions [DecidableEq Call] [DecidableEq Key] (writes : Call → List Write)
    (key : Write → Option Key) :
    TransitionSystem (Transactions Call Write) (TransactionStep Call) where
  Initial state := state = ⟨0, []⟩
  Enabled := Transactions.Enabled writes key
  perform := Transactions.perform writes

theorem exists_committed [DecidableEq Call] [DecidableEq Key] {writes : Call → List Write}
    {key : Write → Option Key}
    {Allowed : Transactions Call Write → TransactionStep Call → Prop}
    {state : Transactions Call Write}
    (reached : (transactions writes key).Reached Allowed state) :
    ∃ committed : List Call, state.database = committed.map writes := by
  apply reached.invariant fun state =>
    ∃ committed : List Call, state.database = committed.map writes
  · rintro _ rfl
    exact ⟨[], rfl⟩
  · rintro state step ⟨committed, same⟩ - -
    cases step with
    | start call => exact ⟨committed, same⟩
    | commit call =>
        refine ⟨committed ++ [call], ?_⟩
        simp only [transactions, Transactions.perform, same, List.map_append, List.map_cons,
          List.map_nil]
    | giveUp call => exact ⟨committed, same⟩

/-! ## What is seen of a call -/

namespace Running

def isOpen (running : Running Call Write) : Bool := running.session.persisted.isEmpty

def persists (running : Running Call Write) : List (List Write) :=
  match running.script with
  | .next op _ _ => op.persists running.session
  | .done _ => []

end Running

/-- The step that an action is seen as, if it is seen. -/
def CallAction.seen : CallAction Call Write → Option (TransactionStep Call)
  | start call => some (.start call)
  | succeed running =>
      if running.persists.isEmpty then none else some (.commit running.call)
  | fail _ _ => none
  | finish running => if running.isOpen then some (.giveUp running.call) else none

theorem CallAction.start_of_seen {action : CallAction Call Write} {call : Call}
    (isSeen : action.seen = some (.start call)) : action = .start call := by
  cases action with
  | start other =>
      cases isSeen
      rfl
  | fail running left => cases isSeen
  | _ =>
      simp only [seen] at isSeen
      split at isSeen <;> cases isSeen

def CallAction.persists : CallAction Call Write → List (List Write)
  | succeed running => running.persists
  | _ => []

/-- What the call's connection has written by then and not committed. -/
def CallAction.writing : CallAction Call Write → List Write
  | succeed running =>
      match running.script with
      | .next op _ _ => (op.after running.session).connection.getD []
      | .done _ => []
  | fail _ left => left.connection.getD []
  | start _ | finish _ => []

def Calls.underway (running : Multiset (Running Call Write)) : Multiset Call :=
  (running.filter fun running => running.isOpen = true).map Running.call

def Calls.seen (state : Calls Call Write) : Transactions Call Write :=
  ⟨underway state.running, state.database⟩

namespace Calls

theorem underway_open (running : Running Call Write) (others : Multiset (Running Call Write))
    (isOpen : running.isOpen = true) :
    underway (running ::ₘ others) = running.call ::ₘ underway others := by
  rw [underway, Multiset.filter_cons_of_pos others isOpen, Multiset.map_cons, underway]

theorem underway_closed (running : Running Call Write) (others : Multiset (Running Call Write))
    (closed : running.isOpen = false) : underway (running ::ₘ others) = underway others := by
  rw [underway, Multiset.filter_cons_of_neg others (by simp [closed]), underway]

theorem underway_goOn (before after : Running Call Write)
    (others : Multiset (Running Call Write)) (call : after.call = before.call)
    (same : after.session.persisted = before.session.persisted) :
    underway (after ::ₘ others) = underway (before ::ₘ others) := by
  have alike : after.isOpen = before.isOpen := by rw [Running.isOpen, same, Running.isOpen]
  cases isOpen : before.isOpen with
  | true =>
      rw [underway_open after others (alike.trans isOpen), underway_open before others isOpen, call]
  | false =>
      rw [underway_closed after others (alike.trans isOpen), underway_closed before others isOpen]

variable {writes : Call → List Write} {state : Calls Call Write}

def Committed (state : Calls Call Write) (call : Call) : Prop :=
  (∃ running ∈ state.running, running.call = call ∧ running.session.persisted ≠ []) ∨
    ∃ ended ∈ state.ended, ended.call = call ∧ ended.outcome = .returned

/-- A call persists nothing, or all that it writes, and that once. -/
theorem Atomic.persists (atomic : state.Atomic writes) {running : Running Call Write}
    (member : running ∈ state.running) :
    running.persists = [] ∨
      running.session.persisted = [] ∧ running.persists = [writes running.call] := by
  rcases running with ⟨call, script, session⟩
  cases script with
  | done outcome => exact .inl rfl
  | next op returned raised =>
      have ensures := atomic.running _ member
      have after : AllOrNothing (writes call) (op.after session) := ensures.2.1.always
      rcases after with none | whole
      · exact .inl (List.append_eq_nil_iff.mp none).2
      · rcases List.append_eq_singleton_iff.mp whole with ⟨nothing, all⟩ | ⟨-, none⟩
        · exact .inr ⟨nothing, all⟩
        · exact .inl none

theorem Atomic.committed (atomic : state.Atomic writes) {block : List Write}
    (member : block ∈ state.database) :
    ∃ call, state.Committed call ∧ block = writes call := by
  have attributed : block ∈ Multiset.ofList state.database := Multiset.mem_coe.mpr member
  rw [atomic.attributed] at attributed
  rcases Multiset.mem_add.mp attributed with now | before
  · rcases Multiset.mem_bind.mp now with ⟨running, member, its⟩
    have all : AllOrNothing (writes running.call) running.session :=
      (atomic.running running member).always
    rcases all with none | single
    · simp [none] at its
    · refine ⟨running.call, .inl ⟨running, member, rfl, by simp [single]⟩, ?_⟩
      simpa [single] using its
  · rcases Multiset.mem_bind.mp before with ⟨ended, member, its⟩
    have settled := atomic.ended ended (Multiset.mem_coe.mp member)
    cases outcome : ended.outcome with
    | raised =>
        rw [outcome] at settled
        have nothing : ended.session = .unopened := settled
        simp [nothing, Session.unopened] at its
    | returned =>
        rw [outcome] at settled
        have all : ended.session = ⟨none, [writes ended.call]⟩ := settled
        refine ⟨ended.call, .inr ⟨ended, Multiset.mem_coe.mp member, rfl, outcome⟩, ?_⟩
        simpa [all] using its

theorem Atomic.of_returned (atomic : state.Atomic writes) {ended : Ended Call Write}
    (member : ended ∈ state.ended) (returned : ended.outcome = .returned) :
    writes ended.call ∈ state.database := by
  have settled := atomic.ended ended member
  rw [returned] at settled
  have all : ended.session = ⟨none, [writes ended.call]⟩ := settled
  apply Multiset.mem_coe.mp
  rw [atomic.attributed]
  refine Multiset.mem_add.mpr (.inr (Multiset.mem_bind.mpr ⟨ended, member, ?_⟩))
  simp [all]

/-- Where each call writes a row and its record, the tables and the outbox are those of the
calls that have committed, one by one. -/
theorem rows_records {Row : Type x} {Record : Type y}
    {state : Calls Call (Written Row Record)} {row : Call → Row}
    {record : Call → Record} {committed : List Call}
    (same : state.database = committed.map fun call => [.row (row call), .record (record call)]) :
    state.rows = committed.map row ∧ state.records = committed.map record := by
  rw [rows, records, same]
  clear same
  induction committed with
  | nil => exact ⟨rfl, rfl⟩
  | cons call committed induction =>
      rcases induction with ⟨rows, records⟩
      simp only [List.map_cons, List.flatten_cons, List.filterMap_append, rows, records]
      exact ⟨rfl, rfl⟩

variable [DecidableEq Call] [DecidableEq Write] [DecidableEq Key]
variable {code : Call → Block (Operation Write)} {key : Write → Option Key}

theorem database_perform (code : Call → Block (Operation Write)) (key : Write → Option Key)
    (state : Calls Call Write) (action : CallAction Call Write) :
    ((calls code key).perform state action).database = state.database ++ action.persists := by
  cases action with
  | start call => exact (List.append_nil _).symm
  | succeed running =>
      rcases running with ⟨call, script, session⟩
      cases script with
      | next op returned raised => rfl
      | done outcome => exact (List.append_nil _).symm
  | fail running left =>
      simp only [calls, perform, CallAction.persists]
      split <;> exact (List.append_nil _).symm
  | finish running =>
      simp only [calls, perform, CallAction.persists]
      split <;> exact (List.append_nil _).symm

theorem holds_of_writing {Holds : Write → Prop}
    (reached : (calls code key).Reached (fun _ action => ∀ write ∈ action.writing, Holds write)
      state) :
    ∀ running ∈ state.running, ∀ write ∈ running.session.connection.getD [], Holds write := by
  apply reached.invariant fun state =>
    ∀ running ∈ state.running, ∀ write ∈ running.session.connection.getD [], Holds write
  · rintro _ rfl running member
    exact absurd member (Multiset.notMem_zero _)
  · intro state action all holds enabled
    cases action with
    | start call => exact Multiset.forall_mem_cons.mpr ⟨by simp [Session.unopened], all⟩
    | succeed running =>
        rcases running with ⟨call, script, session⟩
        cases script with
        | done outcome => exact all
        | next op returned raised => exact forall_cons_erase holds all
    | fail running left =>
        rcases running with ⟨call, script, session⟩
        cases script with
        | done outcome => exact all
        | next op returned raised => exact forall_cons_erase holds all
    | finish running =>
        rcases running with ⟨call, script, session⟩
        cases script with
        | next op returned raised => exact all
        | done outcome => exact fun other member => all other (Multiset.mem_of_mem_erase member)

theorem connection_of_persists {action : CallAction Call Write}
    (enabled : (calls code key).Enabled state action) {block : List Write}
    (persisted : block ∈ action.persists) :
    ∃ running ∈ state.running, running.session.connection = some block := by
  cases action with
  | succeed running =>
      rcases running with ⟨call, script, session⟩
      cases script with
      | done outcome => cases persisted
      | next op returned raised =>
          refine ⟨_, enabled.1, ?_⟩
          cases op with
          | commit => exact Option.mem_toList.mp persisted
          | _ => cases persisted
  | _ => cases persisted

/-- Each action of a call is one step of its transaction, or is not seen at all. -/
theorem Atomic.seen_step (atomic : state.Atomic writes) {action : CallAction Call Write}
    (enabled : (calls code key).Enabled state action) :
    (action.seen = none ∧ ((calls code key).perform state action).seen = state.seen) ∨
      ∃ step, action.seen = some step ∧ (transactions writes key).Enabled state.seen step ∧
        ((calls code key).perform state action).seen =
          (transactions writes key).perform state.seen step := by
  cases action with
  | start call =>
      refine .inr ⟨.start call, rfl, trivial, ?_⟩
      have opened := underway_open ⟨call, (code call).start, .unopened⟩ state.running rfl
      simp only [calls, perform, seen, opened, transactions, Transactions.perform]
  | succeed running =>
      rcases running with ⟨call, script, session⟩
      rcases enabled with ⟨member, free⟩
      have atOnce := atomic.persists member
      rcases Multiset.exists_cons_of_mem member with ⟨others, here⟩
      cases script with
      | done outcome => exact free.elim
      | next op returned raised =>
          have persisted : (op.after session).persisted =
              session.persisted ++ op.persists session := rfl
          rcases atOnce with none | ⟨nothing, whole⟩
          · have none : op.persists session = [] := none
            refine .inl ⟨by simp [CallAction.seen, Running.persists, none], ?_⟩
            rw [none, List.append_nil] at persisted
            have kept := underway_goOn ⟨call, .next op returned raised, session⟩
              ⟨call, returned, op.after session⟩ others rfl persisted
            simp only [calls, perform, seen, none, List.append_nil, here,
              Multiset.erase_cons_head, kept]
          · have nothing : session.persisted = [] := nothing
            have whole : op.persists session = [writes call] := whole
            have free : KeysFree key (state.database ++ op.persists session) := free
            rw [whole] at free
            rw [nothing, whole, List.nil_append] at persisted
            have opened := underway_open ⟨call, .next op returned raised, session⟩ others
              (by simp [Running.isOpen, nothing])
            have closed := underway_closed ⟨call, returned, op.after session⟩ others
              (by simp [Running.isOpen, persisted])
            refine .inr ⟨.commit call, by simp [CallAction.seen, Running.persists, whole],
              ⟨?_, free⟩, ?_⟩
            · change call ∈ underway state.running
              rw [here, opened]
              exact Multiset.mem_cons_self call _
            · simp only [calls, perform, seen, whole, here, Multiset.erase_cons_head, opened,
                closed, transactions, Transactions.perform]
  | fail running left =>
      rcases running with ⟨call, script, session⟩
      rcases enabled with ⟨member, raises⟩
      rcases Multiset.exists_cons_of_mem member with ⟨others, here⟩
      cases script with
      | done outcome => exact raises.elim
      | next op returned raised =>
          have kept := underway_goOn ⟨call, .next op returned raised, session⟩
            ⟨call, raised, left⟩ others rfl (persisted_of_raises raises)
          refine .inl ⟨rfl, ?_⟩
          simp only [calls, perform, seen, here, Multiset.erase_cons_head, kept]
  | finish running =>
      rcases running with ⟨call, script, session⟩
      rcases enabled with ⟨member, finished⟩
      rcases Multiset.exists_cons_of_mem member with ⟨others, here⟩
      cases script with
      | next op returned raised => exact (finished trivial).elim
      | done outcome =>
          cases isOpen : Running.isOpen ⟨call, .done outcome, session⟩ with
          | false =>
              refine .inl ⟨by simp [CallAction.seen, isOpen], ?_⟩
              have closed := underway_closed _ others isOpen
              simp only [calls, perform, seen, here, Multiset.erase_cons_head, closed]
          | true =>
              have opened := underway_open _ others isOpen
              refine .inr ⟨.giveUp call, by simp [CallAction.seen, isOpen], ?_, ?_⟩
              · change call ∈ underway state.running
                rw [here, opened]
                exact Multiset.mem_cons_self call _
              · simp only [calls, perform, seen, here, Multiset.erase_cons_head, opened,
                  transactions, Transactions.perform]

/-- Calls of atomic code run as transactions do. -/
theorem seen_reached {Allowed : Calls Call Write → CallAction Call Write → Prop}
    (meets : ∀ call, (code call).Meets effects (AllOrNothing (writes call))
      (Settled (writes call) .returned) (Settled (writes call) .raised) .unopened)
    (reached : (calls code key).Reached Allowed state) :
    (transactions writes key).Reached TransitionSystem.anyStep state.seen := by
  apply reached.project_reached seen
  · rintro _ rfl
    rfl
  · intro state action before _ enabled
    rcases (Atomic.of_reached meets before).seen_step enabled with
      ⟨-, same⟩ | ⟨step, -, possible, moved⟩
    · exact .inl same
    · exact .inr ⟨step, trivial, possible, moved⟩

end Calls

/-! ## Calls come to an end -/

namespace Script

variable {Op : Type u}

def size : Script Op → Nat
  | done _ => 0
  | next _ returned raised => max returned.size raised.size + 1

def writes : Script (Operation Write) → List Write
  | done _ => []
  | next op returned raised => op.written ++ (returned.writes ++ raised.writes)

def returns : Script Op → Bool
  | done outcome => decide (outcome = .returned)
  | next _ returned _ => returned.returns

end Script

namespace Calls

variable {state : Calls Call Write} {running : Running Call Write}

def work (state : Calls Call Write) : Nat :=
  (state.running.map fun running => running.script.size + 1).sum

theorem Atomic.closed_of_returns {writes : Call → List Write} (atomic : state.Atomic writes)
    (member : running ∈ state.running) {outcome : Outcome}
    (finished : running.script = .done outcome) (returns : running.script.returns = true) :
    running.isOpen = false := by
  have ensures := atomic.running running member
  rw [finished] at ensures returns
  have returned : outcome = .returned := of_decide_eq_true returns
  rw [returned] at ensures
  have settled : running.session = ⟨none, [writes running.call]⟩ := ensures.2
  rw [Running.isOpen, settled]
  rfl

variable [DecidableEq Call] [DecidableEq Write] [DecidableEq Key]
variable {code : Call → Block (Operation Write)} {key : Write → Option Key}

theorem work_step {action : CallAction Call Write} (goesOn : ∀ call, action ≠ .start call)
    (enabled : (calls code key).Enabled state action) :
    ((calls code key).perform state action).work < state.work := by
  let share (running : Running Call Write) := running.script.size + 1
  cases action with
  | start call => exact absurd rfl (goesOn call)
  | succeed running =>
      rcases running with ⟨call, script, session⟩
      have parts := sum_erase share enabled.1
      cases script with
      | done outcome => exact enabled.2.elim
      | next op returned raised =>
          simp only [share, calls, perform, work, Multiset.map_cons, Multiset.sum_cons,
            Script.size] at parts ⊢
          omega
  | fail running left =>
      rcases running with ⟨call, script, session⟩
      have parts := sum_erase share enabled.1
      cases script with
      | done outcome => exact enabled.2.elim
      | next op returned raised =>
          simp only [share, calls, perform, work, Multiset.map_cons, Multiset.sum_cons,
            Script.size] at parts ⊢
          omega
  | finish running =>
      rcases running with ⟨call, script, session⟩
      have parts := sum_erase share enabled.1
      cases script with
      | next op returned raised => exact (enabled.2 trivial).elim
      | done outcome =>
          simp only [share, calls, perform, work, Script.size] at parts ⊢
          omega

/-- A call that nothing is in the way of can go on, or has come to its end. -/
theorem goes_on (code : Call → Block (Operation Write)) (member : running ∈ state.running)
    (free : KeysFree key (state.database ++ running.persists)) :
    (calls code key).Enabled state (.succeed running) ∨
      (∃ outcome, running.script = .done outcome) ∧
        (calls code key).Enabled state (.finish running) := by
  rcases running with ⟨call, script, session⟩
  cases script with
  | next op returned raised => exact .inl ⟨member, free⟩
  | done outcome => exact .inr ⟨⟨outcome, rfl⟩, member, id⟩

/-- Any call can come to its end without a commit. -/
theorem comes_to_end (code : Call → Block (Operation Write))
    (member : running ∈ state.running) (free : KeysFree key state.database) :
    (calls code key).Enabled state (.fail running running.session) ∨
      ((CallAction.succeed running).writing = [] ∧ running.persists = [] ∧
        (calls code key).Enabled state (.succeed running)) ∨
        (calls code key).Enabled state (.finish running) := by
  rcases running with ⟨call, script, session⟩
  cases script with
  | done outcome => exact .inr (.inr ⟨member, id⟩)
  | next op returned raised =>
      cases op with
      | close =>
          refine .inr (.inl ⟨rfl, rfl, member, ?_⟩)
          change KeysFree key (state.database ++ [])
          rw [List.append_nil]
          exact free
      | execute write => exact .inl ⟨member, .inl rfl⟩
      | _ => exact .inl ⟨member, rfl⟩

theorem scripts_of_reached (Fits : Call → Script (Operation Write) → Prop)
    {Allowed : Calls Call Write → CallAction Call Write → Prop}
    (starts : ∀ state call, Allowed state (.start call) → Fits call (code call).start)
    (left : ∀ call op returned raised, Fits call (.next op returned raised) →
      Fits call returned ∧ Fits call raised)
    (reached : (calls code key).Reached Allowed state) :
    ∀ running ∈ state.running, Fits running.call running.script := by
  apply reached.invariant fun state => ∀ running ∈ state.running, Fits running.call running.script
  · rintro _ rfl running member
    exact absurd member (Multiset.notMem_zero _)
  · intro state action all allowed enabled
    cases action with
    | start call => exact Multiset.forall_mem_cons.mpr ⟨starts state call allowed, all⟩
    | succeed running =>
        rcases running with ⟨call, script, session⟩
        cases script with
        | done outcome => exact all
        | next op returned raised =>
            exact forall_cons_erase (left call op returned raised (all _ enabled.1)).1 all
    | fail running remains =>
        rcases running with ⟨call, script, session⟩
        cases script with
        | done outcome => exact all
        | next op returned raised =>
            exact forall_cons_erase (left call op returned raised (all _ enabled.1)).2 all
    | finish running =>
        rcases running with ⟨call, script, session⟩
        cases script with
        | next op returned raised => exact all
        | done outcome => exact fun other member => all other (Multiset.mem_of_mem_erase member)

theorem returns_of_reached {kind : Call → Bool}
    {Allowed : Calls Call Write → CallAction Call Write → Prop}
    (starts : ∀ call, kind call = true → (code call).start.returns = true)
    (unfailing : ∀ state running left, Allowed state (.fail running left) →
      kind running.call = false)
    (reached : (calls code key).Reached Allowed state) :
    ∀ running ∈ state.running, kind running.call = true → running.script.returns = true := by
  apply reached.invariant fun state =>
    ∀ running ∈ state.running, kind running.call = true → running.script.returns = true
  · rintro _ rfl running member
    exact absurd member (Multiset.notMem_zero _)
  · intro state action all allowed enabled
    cases action with
    | start call =>
        exact Multiset.forall_mem_cons.mpr ⟨starts call, all⟩
    | succeed running =>
        rcases running with ⟨call, script, session⟩
        have mine := all _ enabled.1
        cases script with
        | done outcome => exact all
        | next op returned raised => exact forall_cons_erase mine all
    | fail running left =>
        rcases running with ⟨call, script, session⟩
        have other := unfailing state _ left allowed
        cases script with
        | done outcome => exact all
        | next op returned raised =>
            exact forall_cons_erase (fun same => by simp [other] at same) all
    | finish running =>
        rcases running with ⟨call, script, session⟩
        cases script with
        | next op returned raised => exact all
        | done outcome => exact fun other member => all other (Multiset.mem_of_mem_erase member)

end Calls

end AmqpApps
