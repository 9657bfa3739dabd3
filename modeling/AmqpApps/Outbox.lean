import AmqpApps.Foundation.UnitOfWork
import AmqpApps.Wire

/-! # The outbox

A row and the record that announces it, written through one connection. `add` writes
on the connection it is handed, and does nothing else to it.
-/

namespace AmqpApps

structure Envelope where
  type : String
  /-- Where none is given, the library draws one. -/
  id : Option String
  correlationId : String
  origin : Option String
deriving DecidableEq

/-- What `record` makes of an event, encoded or not. -/
structure OutboxRecord (Event : Type u) where
  exchange : String
  routingKey : String
  event : Event
  envelope : Envelope
deriving DecidableEq

def OutboxRecord.payload (asdict : Event → Fields) (record : OutboxRecord Event) : Payload :=
  toWire camel (asdict record.event)

def add (record : Record) : Operation (Written Row Record) := .execute (.record record)

variable {Call : Type u} {Row : Type v} {Record : Type w} {Key : Type x}

/-- A call's row and record are written both or neither, as it returns or raises, and
its connection is closed; so the rows are those that the outbox has announced. -/
structure Announced (row : Call → Row) (record : Call → Record) (keyOf : Row → Key)
    (Carries : Row → Record → Prop) (state : Calls Call (Written Row Record)) : Prop where
  returned : ∀ ended ∈ state.ended, ended.outcome = .returned ↔
    .row (row ended.call) ∈ ended.session.persisted.flatten ∧
      .record (record ended.call) ∈ ended.session.persisted.flatten
  raised : ∀ ended ∈ state.ended, ended.outcome = .raised ↔
    .row (row ended.call) ∉ ended.session.persisted.flatten ∧
      .record (record ended.call) ∉ ended.session.persisted.flatten
  closed : ∀ ended ∈ state.ended, ended.session.connection = none
  attributed : Multiset.ofList state.database =
    (state.running.bind fun call => Multiset.ofList call.session.persisted) +
      (Multiset.ofList state.ended).bind fun call => Multiset.ofList call.session.persisted
  corresponding : List.Forall₂ Carries state.rows state.records
  keys : (state.rows.map keyOf).Nodup

theorem Announced.of_reached [DecidableEq Call] [DecidableEq Row] [DecidableEq Record]
    [DecidableEq Key] {code : Call → Block (Operation (Written Row Record))}
    {row : Call → Row} {record : Call → Record} {keyOf : Row → Key}
    {Carries : Row → Record → Prop}
    {Allowed : Calls Call (Written Row Record) → CallAction Call (Written Row Record) → Prop}
    {state : Calls Call (Written Row Record)}
    (meets : ∀ call, (code call).Meets effects
      (AllOrNothing [.row (row call), .record (record call)])
      (Settled [.row (row call), .record (record call)] .returned)
      (Settled [.row (row call), .record (record call)] .raised) .unopened)
    (carries : ∀ call, Carries (row call) (record call))
    (reached : (calls code (Written.key keyOf)).Reached Allowed state) :
    Announced row record keyOf Carries state := by
  have atomic := Calls.Atomic.of_reached meets reached
  have sessions : ∀ ended ∈ state.ended,
      ended.outcome = .returned ∧
          ended.session = ⟨none, [[.row (row ended.call), .record (record ended.call)]]⟩ ∨
        ended.outcome = .raised ∧ ended.session = .unopened := by
    intro ended member
    have settled := atomic.ended ended member
    cases outcome : ended.outcome with
    | returned =>
        rw [outcome] at settled
        exact .inl ⟨rfl, settled⟩
    | raised =>
        rw [outcome] at settled
        exact .inr ⟨rfl, settled⟩
  constructor
  · intro ended member
    rcases sessions ended member with ⟨outcome, session⟩ | ⟨outcome, session⟩
    · simp [outcome, session]
    · simp [outcome, session, Session.unopened]
  · intro ended member
    rcases sessions ended member with ⟨outcome, session⟩ | ⟨outcome, session⟩
    · simp [outcome, session]
    · simp [outcome, session, Session.unopened]
  · intro ended member
    rcases sessions ended member with ⟨-, session⟩ | ⟨-, session⟩
    · rw [session]
    · rw [session]
      rfl
  · exact atomic.attributed
  · apply Calls.paired
    intro block member
    rcases atomic.whole block member with ⟨call, same⟩
    exact ⟨row call, record call, same, carries call⟩
  · rw [← Calls.keys_rows]
    exact keysFree_of_reached reached

end AmqpApps
