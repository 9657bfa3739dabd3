import AmqpApps.Outbox
import AmqpApps.PolicyAdministration.Application

/-! # `PolicyModule`: what it writes, and what it answers

`_write` puts one row and one outbox record in one transaction, for `submit` and for
`_issue`. `_lookup` reads the table of policies.
-/

namespace AmqpApps.PolicyAdministration

inductive TableRow
  | application (row : ApplicationRow)
  | policy (row : PolicyRow)
deriving DecidableEq

def TableRow.key : TableRow → String × String
  | application row => ("applications", row.id)
  | policy row => ("policies", row.id)

def TableRow.Storable : TableRow → Prop
  | application row => row.Storable
  | policy row => row.Storable

instance (row : TableRow) : Decidable row.Storable := by
  rcases row with ⟨⟩ <;> unfold TableRow.Storable <;> infer_instance

inductive Announcement
  | submitted (event : ApplicationSubmitted)
  | issued (event : PolicyIssued)
deriving DecidableEq

def Announcement.asdict : Announcement → Fields
  | submitted event => event.asdict
  | issued event => event.asdict

def Announcement.fieldNames : Announcement → List String
  | submitted _ => ApplicationSubmitted.fieldNames
  | issued _ => PolicyIssued.fieldNames

def outboxRecord (eventKey : String) (event : Announcement) (kind correlation : String) :
    OutboxRecord Announcement where
  exchange := Contracts.exchange
  routingKey := eventKey
  event
  envelope := ⟨kind, none, correlation, none⟩

def write (row : TableRow) (eventKey : String) (event : Announcement)
    (kind correlation : String) :
    Block (Operation (Written TableRow (OutboxRecord Announcement))) :=
  .seq (.call .connect)
    (.guarded
      (.seq (.call (.execute (.row row)))
        -- `record` encodes the payload before `add` is awaited.
        (.seq (.call .evaluate)
          (.seq (.call (add (outboxRecord eventKey event kind correlation)))
            (.call .commit))))
      (.seq (.call .rollback) .raise)
      (.call .close))

inductive PolicyCall
  | submit (applicationId applicant product : String) (sumAssured age : Int)
  | issue (accepted : ApplicationAccepted) (policyId : String)
deriving DecidableEq

namespace PolicyCall

def row : PolicyCall → TableRow
  | submit applicationId applicant product sumAssured age =>
      .application ⟨applicationId, applicant, product, sumAssured, age⟩
  | issue accepted policyId => .policy (policyRow accepted policyId)

def record : PolicyCall → OutboxRecord Announcement
  | submit applicationId applicant product sumAssured age =>
      outboxRecord Contracts.applicationSubmitted
        (.submitted ⟨applicationId, applicant, product, sumAssured, age⟩)
        "ApplicationSubmitted" applicationId
  | issue accepted policyId =>
      outboxRecord Contracts.policyIssued (.issued (policyIssued accepted policyId))
        "PolicyIssued" accepted.applicationId

end PolicyCall

def submit (applicationId applicant product : String) (sumAssured age : Int) :
    Block (Operation (Written TableRow (OutboxRecord Announcement))) :=
  write (.application ⟨applicationId, applicant, product, sumAssured, age⟩)
    Contracts.applicationSubmitted
    (.submitted ⟨applicationId, applicant, product, sumAssured, age⟩)
    "ApplicationSubmitted" applicationId

/-- `_issue`, whose `from_wire` comes first. -/
def issue (accepted : ApplicationAccepted) (policyId : String) :
    Block (Operation (Written TableRow (OutboxRecord Announcement))) :=
  .seq (.call .evaluate)
    (write (.policy (policyRow accepted policyId)) Contracts.policyIssued
      (.issued (policyIssued accepted policyId)) "PolicyIssued" accepted.applicationId)

def PolicyCall.code :
    PolicyCall → Block (Operation (Written TableRow (OutboxRecord Announcement)))
  | submit applicationId applicant product sumAssured age =>
      PolicyAdministration.submit applicationId applicant product sumAssured age
  | issue accepted policyId => PolicyAdministration.issue accepted policyId

private theorem write_meets (row : TableRow) (eventKey : String) (event : Announcement)
    (kind correlation : String) :
    let record := outboxRecord eventKey event kind correlation
    (write row eventKey event kind correlation).Meets effects
      (AllOrNothing [.row row, .record record])
      (Settled [.row row, .record record] .returned)
      (Settled [.row row, .record record] .raised) .unopened := by
  intro record
  have plain : ∀ op ∈ [.execute (.row row), .evaluate, add record], op.Plain := by
    simp [add, Operation.Plain]
  exact transaction_meets plain

theorem PolicyCall.code_meets (call : PolicyCall) :
    call.code.Meets effects (AllOrNothing [.row call.row, .record call.record])
      (Settled [.row call.row, .record call.record] .returned)
      (Settled [.row call.row, .record call.record] .raised) .unopened := by
  cases call with
  | submit applicationId applicant product sumAssured age => exact write_meets ..
  | issue accepted policyId =>
      -- `from_wire` leaves nothing behind, whether it raises or not.
      exact ⟨.inl rfl, write_meets .., fun left raises => raises⟩

def policyModule :
    TransitionSystem (Calls PolicyCall (Written TableRow (OutboxRecord Announcement)))
      (CallAction PolicyCall (Written TableRow (OutboxRecord Announcement))) :=
  calls PolicyCall.code (Written.key TableRow.key)

instance (state : Calls PolicyCall (Written TableRow (OutboxRecord Announcement)))
    (action : CallAction PolicyCall (Written TableRow (OutboxRecord Announcement))) :
    Decidable (policyModule.Enabled state action) :=
  inferInstanceAs (Decidable (state.Enabled _ action))

def TableRow.announcement : TableRow → Announcement
  | application row => .submitted row.submitted
  | policy row =>
      .issued ⟨row.id, row.applicationId, row.applicant, row.product, row.premium⟩

def TableRow.applicationId : TableRow → String
  | application row => row.id
  | policy row => row.applicationId

/-- The record is read back as the fields of the row, and goes by its application. -/
def TableRow.AnnouncedBy (row : TableRow) (record : OutboxRecord Announcement) : Prop :=
  fromWire camel row.announcement.fieldNames (record.payload Announcement.asdict) =
      .ok row.announcement.asdict ∧
    record.envelope.correlationId = row.applicationId

theorem PolicyCall.announced (call : PolicyCall) : call.row.AnnouncedBy call.record := by
  cases call with
  | submit applicationId applicant product sumAssured age =>
      exact ⟨ApplicationSubmitted.fromWire_toWire _, rfl⟩
  | issue accepted policyId => exact ⟨PolicyIssued.fromWire_toWire _, rfl⟩

/-! ## The lookup -/

/-- `_lookup`, which `_status_of` answers with. A premium of zero is a premium. -/
def statusOf (policies : List PolicyRow) (policyId : String) : PolicyStatus :=
  match policies.find? (·.id == policyId) with
  | some row => ⟨policyId, true, row.premium⟩
  | none => ⟨policyId, false, 0⟩

def Application.holds (state : Application) (policyId : String) : Bool :=
  decide (policyId ∈ state.policies.map PolicyRow.id)

/-- A policy is in force if and only if the table holds it. -/
theorem statusOf_inForce (state : Application) (policyId : String) :
    (statusOf state.policies policyId).inForce = state.holds policyId := by
  rw [statusOf, Application.holds]
  cases found : state.policies.find? (·.id == policyId) with
  | some row =>
      have same : row.id = policyId := by simpa using List.find?_some found
      have member := List.mem_of_find?_eq_some found
      exact (decide_eq_true (List.mem_map.mpr ⟨row, member, same⟩)).symm
  | none =>
      have absent := List.find?_eq_none.mp found
      symm
      apply decide_eq_false
      intro member
      rcases List.mem_map.mp member with ⟨row, present, same⟩
      exact absent row present (by simpa using same)

theorem Application.holds_perform (state : Application) (step : Step) {policyId : String}
    (holds : state.holds policyId = true) : (state.perform step).holds policyId = true := by
  have kept : ∃ more, (state.perform step).policies = state.policies ++ more := by
    cases step with
    | commit write =>
        cases write with
        | submit row => exact ⟨[], (List.append_nil _).symm⟩
        | issue event policyId messageId => exact ⟨[policyRow event policyId], rfl⟩
    | return_ stage =>
        rw [perform_return]
        exact ⟨[], (List.append_nil _).symm⟩
    | deliver message policyId messageId =>
        cases message <;> exact ⟨[], (List.append_nil _).symm⟩
    | _ => exact ⟨[], (List.append_nil _).symm⟩
  rcases kept with ⟨more, same⟩
  rw [Application.holds, decide_eq_true_iff] at holds ⊢
  rw [same, List.map_append]
  exact List.mem_append_left _ holds

end AmqpApps.PolicyAdministration
