import AmqpApps.Foundation.KeyedBags
import AmqpApps.Foundation.Script
import AmqpApps.Foundation.TransitionSystem
import Mathlib.Data.Multiset.Bind
import Mathlib.Data.List.Forall2
import Mathlib.Tactic.Abel

/-! # Units of work

Any number of calls, each of which opens a connection, writes in one transaction
and closes it again. Every operation but the close may raise, and any other call may
take a step in between. A database persists what a transaction has written when its
commit returns, and then only.
-/

namespace AmqpApps

inductive Operation (Write : Type u)
  | connect
  | execute (write : Write)
  /-- What touches no connection. -/
  | evaluate
  | commit
  | rollback
  | close
deriving DecidableEq

structure Session (Write : Type u) where
  /-- What an open connection has written and not committed. -/
  connection : Option (List Write)
  persisted : List (List Write)
deriving DecidableEq

variable {Write : Type u} {Call : Type v}

def Session.unopened : Session Write := ⟨none, []⟩

namespace Operation

def persists : Operation Write → Session Write → List (List Write)
  | commit, session => session.connection.toList
  | _, _ => []

def after (op : Operation Write) (session : Session Write) : Session Write where
  connection :=
    match op with
    | connect => some []
    | execute write => session.connection.map (· ++ [write])
    | evaluate => session.connection
    | commit | rollback => session.connection.map fun _ => []
    | close => none
  persisted := session.persisted ++ op.persists session

/-- What raises has persisted nothing, though it may have written. -/
def Raises : Operation Write → Session Write → Session Write → Prop
  | execute write, session, left => left = session ∨ left = (execute write).after session
  | close, _, _ => False
  | _, session, left => left = session

instance [DecidableEq Write] (op : Operation Write) (session left : Session Write) :
    Decidable (op.Raises session left) := by
  rcases op with ⟨⟩ <;> unfold Raises <;> infer_instance

def written : Operation Write → List Write
  | execute write => [write]
  | _ => []

/-- A write, or nothing to do with the connection. -/
def Plain : Operation Write → Prop
  | execute _ | evaluate => True
  | _ => False

end Operation

def effects : Effects (Operation Write) (Session Write) := ⟨Operation.after, Operation.Raises⟩

theorem persisted_of_raises {op : Operation Write} {session left : Session Write}
    (raises : effects.Raises op session left) : left.persisted = session.persisted := by
  cases op with
  | execute write =>
      rcases raises with same | wrote
      · rw [same]
      · rw [wrote]
        exact List.append_nil _
  | close => exact raises.elim
  | connect | evaluate | commit | rollback => rw [show left = session from raises]

/-! ## One transaction -/

def sequence : List (Operation Write) → Operation Write → Block (Operation Write)
  | [], last => .call last
  | op :: ops, last => .seq (.call op) (sequence ops last)

/-- Connect; try the statements and commit; roll back and raise what they raise; close
in the end. -/
def transaction (statements : List (Operation Write)) : Block (Operation Write) :=
  .seq (.call .connect)
    (.guarded (sequence statements .commit) (.seq (.call .rollback) .raise) (.call .close))

def AllOrNothing (writes : List Write) (session : Session Write) : Prop :=
  session.persisted = [] ∨ session.persisted = [writes]

/-- A call that returns has persisted its writes, one that raises has persisted none;
and its connection is closed. -/
def Settled (writes : List Write) : Outcome → Session Write → Prop
  | .returned, session => session = ⟨none, [writes]⟩
  | .raised, session => session = .unopened

theorem Settled.allOrNothing {writes : List Write} {outcome : Outcome} {session : Session Write}
    (settled : Settled writes outcome session) : AllOrNothing writes session := by
  cases outcome with
  | returned => exact .inr (congrArg Session.persisted settled)
  | raised => exact .inl (congrArg Session.persisted settled)

theorem sequence_meets {writes : List Write} {statements : List (Operation Write)}
    (plain : ∀ op ∈ statements, op.Plain) :
    ∀ pending : List Write, pending ++ statements.flatMap Operation.written = writes →
      (sequence statements .commit).Meets effects (AllOrNothing writes)
        (· = ⟨some [], [writes]⟩) (·.persisted = []) ⟨some pending, []⟩ := by
  induction statements with
  | nil =>
      intro pending all
      have same : pending = writes := by simpa using all
      subst same
      exact ⟨.inl rfl, rfl, fun left raises => persisted_of_raises raises⟩
  | cons op statements induction =>
      intro pending all
      have rest := induction fun other member => plain other (List.mem_cons_of_mem _ member)
      refine ⟨.inl rfl, ?_, fun left raises => persisted_of_raises raises⟩
      cases op with
      | execute write =>
          apply rest (pending ++ [write])
          rw [← all, List.flatMap_cons, List.append_assoc]
          rfl
      | evaluate => exact rest pending all
      | connect | commit | rollback | close => exact (plain _ List.mem_cons_self).elim

theorem handler_meets {writes : List Write} {session : Session Write}
    (nothing : session.persisted = []) (Returned : Session Write → Prop) :
    (Block.seq (.call .rollback) .raise).Meets effects (AllOrNothing writes) Returned
      ((Block.call .close).Meets effects (AllOrNothing writes) (· = .unopened) (· = .unopened))
      session := by
  have closes : ∀ left : Session Write, left.persisted = [] →
      (Block.call .close).Meets effects (AllOrNothing writes) (· = .unopened) (· = .unopened)
        left := by
    intro left none
    refine ⟨.inl none, ?_, fun _ raises => raises.elim⟩
    simp [effects, Operation.after, Operation.persists, none, Session.unopened]
  refine ⟨.inl nothing, closes _ ?_, fun left raises => closes left ?_⟩
  · simp [effects, Operation.after, Operation.persists, nothing]
  · rw [persisted_of_raises raises, nothing]

/-- A transaction is atomic, whatever raises. -/
theorem transaction_meets {statements : List (Operation Write)}
    (plain : ∀ op ∈ statements, op.Plain) :
    (transaction statements).Meets effects
      (AllOrNothing (statements.flatMap Operation.written))
      (Settled (statements.flatMap Operation.written) .returned)
      (Settled (statements.flatMap Operation.written) .raised) .unopened := by
  refine ⟨.inl rfl, ?_, fun left raises => raises⟩
  have body : (sequence statements .commit).Meets effects _ _ _ ⟨some [], []⟩ :=
    sequence_meets plain [] rfl
  refine body.mono ?_ fun session nothing => handler_meets nothing _
  intro session committed
  rw [committed]
  exact ⟨.inr rfl, rfl, fun _ raises => raises.elim⟩

/-! ## Any number of calls -/

structure Running (Call : Type v) (Write : Type u) where
  call : Call
  script : Script (Operation Write)
  session : Session Write
deriving DecidableEq

def Running.At (running : Running Call Write) (kind : Operation Write → Prop) : Prop :=
  match running.script with
  | .next op _ _ => kind op
  | .done _ => False

instance (running : Running Call Write) (kind : Operation Write → Prop) [DecidablePred kind] :
    Decidable (running.At kind) := by
  unfold Running.At
  split <;> infer_instance

structure Ended (Call : Type v) (Write : Type u) where
  call : Call
  outcome : Outcome
  session : Session Write
deriving DecidableEq

structure Calls (Call : Type v) (Write : Type u) where
  running : Multiset (Running Call Write)
  ended : List (Ended Call Write)
  /-- What each commit has persisted, in turn. -/
  database : List (List Write)

inductive CallAction (Call : Type v) (Write : Type u)
  | start (call : Call)
  /-- The next operation returns. -/
  | succeed (running : Running Call Write)
  /-- The next operation raises. -/
  | fail (running : Running Call Write) (left : Session Write)
  | finish (running : Running Call Write)
deriving DecidableEq

namespace Calls

variable [DecidableEq Call] [DecidableEq Write]

def initial : Calls Call Write := ⟨0, [], []⟩

/-- No two rows of the database would have the same primary key. -/
def KeysFree [DecidableEq Key] (key : Write → Option Key) (database : List (List Write)) : Prop :=
  (database.flatten.filterMap key).Nodup

instance [DecidableEq Key] (key : Write → Option Key) (database : List (List Write)) :
    Decidable (KeysFree key database) :=
  inferInstanceAs (Decidable (List.Nodup _))

def Enabled [DecidableEq Key] (key : Write → Option Key) (state : Calls Call Write) :
    CallAction Call Write → Prop
  | .start _ => True
  | .succeed running =>
      running ∈ state.running ∧
        running.At fun op => KeysFree key (state.database ++ op.persists running.session)
  | .fail running left =>
      running ∈ state.running ∧ running.At fun op => op.Raises running.session left
  | .finish running => running ∈ state.running ∧ ¬running.At fun _ => True

instance [DecidableEq Key] (key : Write → Option Key) (state : Calls Call Write)
    (action : CallAction Call Write) : Decidable (state.Enabled key action) := by
  rcases action with ⟨⟩ <;> unfold Enabled <;> infer_instance

def perform (code : Call → Block (Operation Write)) (state : Calls Call Write) :
    CallAction Call Write → Calls Call Write
  | .start call =>
      { state with running := ⟨call, (code call).start, .unopened⟩ ::ₘ state.running }
  | .succeed running =>
      match running.script with
      | .next op returned _ =>
          { state with
            running := ⟨running.call, returned, op.after running.session⟩ ::ₘ
              state.running.erase running
            database := state.database ++ op.persists running.session }
      | .done _ => state
  | .fail running left =>
      match running.script with
      | .next _ _ raised =>
          { state with
            running := ⟨running.call, raised, left⟩ ::ₘ state.running.erase running }
      | .done _ => state
  | .finish running =>
      match running.script with
      | .next .. => state
      | .done outcome =>
          { state with
            running := state.running.erase running
            ended := state.ended ++ [⟨running.call, outcome, running.session⟩] }

end Calls

def calls [DecidableEq Call] [DecidableEq Write] [DecidableEq Key]
    (code : Call → Block (Operation Write)) (key : Write → Option Key) :
    TransitionSystem (Calls Call Write) (CallAction Call Write) where
  Initial state := state = .initial
  Enabled := Calls.Enabled key
  perform := Calls.perform code

instance [DecidableEq Call] [DecidableEq Write] [DecidableEq Key]
    (code : Call → Block (Operation Write)) (key : Write → Option Key)
    (state : Calls Call Write) (action : CallAction Call Write) :
    Decidable ((calls code key).Enabled state action) :=
  inferInstanceAs (Decidable (state.Enabled key action))

/-- Every call is settled or on its way to be, and what the database holds is what the
calls have persisted. -/
structure Calls.Atomic (writes : Call → List Write) (state : Calls Call Write) : Prop where
  running : ∀ call ∈ state.running, call.script.Ensures effects
    (AllOrNothing (writes call.call)) (Settled (writes call.call)) call.session
  ended : ∀ call ∈ state.ended, Settled (writes call.call) call.outcome call.session
  attributed : Multiset.ofList state.database =
    (state.running.bind fun call => Multiset.ofList call.session.persisted) +
      (Multiset.ofList state.ended).bind fun call => Multiset.ofList call.session.persisted

namespace Calls.Atomic

variable {writes : Call → List Write} {state : Calls Call Write}

/-- Every transaction of the database is the whole of a call's writes. -/
theorem whole (atomic : state.Atomic writes) :
    ∀ block ∈ state.database, ∃ call, block = writes call := by
  intro block member
  have present : block ∈ Multiset.ofList state.database := Multiset.mem_coe.mpr member
  rw [atomic.attributed] at present
  rcases Multiset.mem_add.mp present with now | before
  · rcases Multiset.mem_bind.mp now with ⟨running, held, persisted⟩
    have all : AllOrNothing (writes running.call) running.session :=
      (atomic.running running held).always
    rcases all with none | single
    · simp [none] at persisted
    · exact ⟨running.call, by simpa [single] using persisted⟩
  · rcases Multiset.mem_bind.mp before with ⟨ended, held, persisted⟩
    rcases (atomic.ended ended (Multiset.mem_coe.mp held)).allOrNothing with none | single
    · simp [none] at persisted
    · exact ⟨ended.call, by simpa [single] using persisted⟩

variable [DecidableEq Call] [DecidableEq Write]

theorem move (atomic : state.Atomic writes) {before after : Running Call Write}
    {more : List (List Write)} (present : before ∈ state.running)
    (ensures : after.script.Ensures effects (AllOrNothing (writes after.call))
      (Settled (writes after.call)) after.session)
    (persisted : after.session.persisted = before.session.persisted ++ more) :
    Calls.Atomic writes
      { state with
        running := after ::ₘ state.running.erase before
        database := state.database ++ more } where
  running := forall_cons_erase ensures atomic.running
  ended := atomic.ended
  attributed := by
    have held := atomic.attributed
    rw [← Multiset.cons_erase present, Multiset.cons_bind] at held
    rw [← Multiset.coe_add, held, Multiset.cons_bind, persisted, ← Multiset.coe_add]
    abel

theorem finish (atomic : state.Atomic writes) {running : Running Call Write}
    {outcome : Outcome} (present : running ∈ state.running)
    (settled : Settled (writes running.call) outcome running.session) :
    Calls.Atomic writes
      { state with
        running := state.running.erase running
        ended := state.ended ++ [⟨running.call, outcome, running.session⟩] } where
  running call member := atomic.running call (Multiset.mem_of_mem_erase member)
  ended call member := by
    rcases List.mem_append.mp member with before | now
    · exact atomic.ended call before
    · rw [List.mem_singleton.mp now]
      exact settled
  attributed := by
    have held := atomic.attributed
    rw [← Multiset.cons_erase present, Multiset.cons_bind] at held
    rw [held, ← Multiset.coe_add, Multiset.add_bind]
    simp only [Multiset.coe_singleton, Multiset.singleton_bind]
    abel

theorem of_reached [DecidableEq Key] {code : Call → Block (Operation Write)}
    {key : Write → Option Key} {Allowed : Calls Call Write → CallAction Call Write → Prop}
    (meets : ∀ call, (code call).Meets effects (AllOrNothing (writes call))
      (Settled (writes call) .returned) (Settled (writes call) .raised) .unopened)
    (reached : (calls code key).Reached Allowed state) : state.Atomic writes := by
  apply reached.invariant
  · rintro _ rfl
    exact ⟨by simp [Calls.initial], by simp [Calls.initial], rfl⟩
  · rintro state action atomic - enabled
    cases action with
    | start call =>
        have started := ((meets call).mono
          (fun _ settled => ⟨Settled.allOrNothing settled, settled⟩)
          fun _ settled => ⟨Settled.allOrNothing settled, settled⟩).ensures
        refine ⟨?_, atomic.ended, ?_⟩
        · intro other member
          rcases Multiset.mem_cons.mp member with now | before
          · rw [now]
            exact started
          · exact atomic.running other before
        · rw [show ((calls code key).perform state (.start call)).running =
            ⟨call, (code call).start, .unopened⟩ ::ₘ state.running from rfl, Multiset.cons_bind]
          simpa [Session.unopened, calls, Calls.perform] using atomic.attributed
    | succeed running =>
        have ensures := atomic.running running enabled.1
        simp only [calls, Calls.perform]
        split
        · rename_i op returned raised script
          rw [script] at ensures
          exact atomic.move enabled.1 ensures.2.1 rfl
        · exact atomic
    | fail running left =>
        have ensures := atomic.running running enabled.1
        have raises := enabled.2
        rw [Running.At] at raises
        simp only [calls, Calls.perform]
        split
        · rename_i op returned raised script
          rw [script] at ensures raises
          let after : Running Call Write := ⟨running.call, raised, left⟩
          have nothing : after.session.persisted = running.session.persisted ++ [] := by
            rw [List.append_nil]
            exact persisted_of_raises raises
          simpa using atomic.move enabled.1 (ensures.2.2 left raises) nothing
        · exact atomic
    | finish running =>
        have ensures := atomic.running running enabled.1
        simp only [calls, Calls.perform]
        split
        · exact atomic
        · rename_i outcome script
          rw [script] at ensures
          exact atomic.finish enabled.1 ensures.2

end Calls.Atomic

theorem keysFree_of_reached [DecidableEq Call] [DecidableEq Write] [DecidableEq Key]
    {code : Call → Block (Operation Write)} {key : Write → Option Key}
    {Allowed : Calls Call Write → CallAction Call Write → Prop} {state : Calls Call Write}
    (reached : (calls code key).Reached Allowed state) : Calls.KeysFree key state.database := by
  apply reached.invariant fun state => Calls.KeysFree key state.database
  · rintro _ rfl
    exact List.nodup_nil
  · rintro state action free - enabled
    cases action with
    | start call => exact free
    | succeed running =>
        have possible := enabled.2
        rw [Running.At] at possible
        simp only [calls, Calls.perform]
        split
        · rename_i op returned raised script
          rw [script] at possible
          exact possible
        · exact free
    | fail running left =>
        simp only [calls, Calls.perform]
        split
        · exact free
        · exact free
    | finish running =>
        simp only [calls, Calls.perform]
        split
        · exact free
        · exact free

/-! ## A row and a record in each transaction -/

/-- What a transaction writes: rows of tables, and records of an outbox. -/
inductive Written (Row : Type u) (Record : Type v)
  | row (row : Row)
  | record (record : Record)
deriving DecidableEq

namespace Written

variable {Row : Type u} {Record : Type v}

def row? : Written Row Record → Option Row
  | row held => some held
  | record _ => none

def record? : Written Row Record → Option Record
  | row _ => none
  | record held => some held

def key (keyOf : Row → Key) (written : Written Row Record) : Option Key :=
  written.row?.map keyOf

end Written

namespace Calls

variable {Row : Type w} {Record : Type x}

def rows (state : Calls Call (Written Row Record)) : List Row :=
  state.database.flatten.filterMap Written.row?

def records (state : Calls Call (Written Row Record)) : List Record :=
  state.database.flatten.filterMap Written.record?

theorem keys_rows (state : Calls Call (Written Row Record)) (keyOf : Row → Key) :
    state.database.flatten.filterMap (Written.key keyOf) = state.rows.map keyOf := by
  rw [rows, List.map_filterMap]
  rfl

/-- Where every transaction writes a row and its record, the rows and the records
correspond one to one. -/
theorem paired {state : Calls Call (Written Row Record)} {Carries : Row → Record → Prop}
    (whole : ∀ block ∈ state.database, ∃ row record,
      block = [.row row, .record record] ∧ Carries row record) :
    List.Forall₂ Carries state.rows state.records := by
  rw [rows, records]
  generalize state.database = database at whole
  induction database with
  | nil => exact .nil
  | cons block database induction =>
      rcases whole block List.mem_cons_self with ⟨row, record, same, carries⟩
      have rest := induction fun other member => whole other (List.mem_cons_of_mem _ member)
      rw [same, List.flatten_cons, List.filterMap_append, List.filterMap_append]
      exact .cons carries rest

end Calls

end AmqpApps
