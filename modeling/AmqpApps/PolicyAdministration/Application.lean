import AmqpApps.PolicyAdministration.Billing

/-! # From an application to a premium

The policy application from `submit` to billing: the tables and the outbox of
`PolicyModule`, its relay, the stages of `UnderwritingModule`, and billing. Every
queue is at least once, so a message that was ever on a queue can be handed out
again.
-/

namespace AmqpApps.PolicyAdministration

/-! ## Underwriting -/

def referralThreshold : Int := 500000

structure Checked where
  application : ApplicationSubmitted
  knownToRegister : Bool
deriving DecidableEq

structure Priced where
  application : ApplicationSubmitted
  annualPremium : Int
  refer : Bool
deriving DecidableEq

/-- `str.lower`, as far as the letters of "known" go: besides the capital
letters only the Kelvin sign is lowered to one of them. -/
def lower (letter : Char) : Char :=
  if letter = '\u212A' then 'k' else letter.toLower

def checkRegister (application : ApplicationSubmitted) : Checked :=
  ⟨application, decide ("known".toList <:+: application.applicant.toList.map lower)⟩

/-- `_price`. Python's `//` rounds down, as `/` does here for these divisors. -/
def price (checked : Checked) : Priced :=
  let application := checked.application
  let base := application.sumAssured / 1000
  let ageLoading := max 0 (application.ageOfApplicant - 30) * 2
  let registerLoading := if checked.knownToRegister then base / 2 else 0
  ⟨application, base + ageLoading + registerLoading,
    decide (application.sumAssured > referralThreshold)⟩

inductive Verdict
  | accepted (event : ApplicationAccepted)
  | declined (event : ApplicationDeclined)
deriving DecidableEq

def decideOn (priced : Priced) : Verdict :=
  let application := priced.application
  if priced.refer then
    .declined ⟨application.applicationId, application.applicant,
      s!"sum assured of {application.sumAssured} is above the automatic limit"⟩
  else
    .accepted ⟨application.applicationId, application.applicant, application.product,
      application.sumAssured, priced.annualPremium⟩

/-! ## Messages -/

/-- A message on one of the queues: `policy.underwriting`, the three stage
queues, `policy.policies` and `policy.billing`, in this order. -/
inductive Message
  | submitted (event : ApplicationSubmitted)
  | register (application : ApplicationSubmitted)
  | price (checked : Checked)
  | decide (priced : Priced)
  | accepted (event : ApplicationAccepted)
  | issued (messageId : String) (event : PolicyIssued)
deriving DecidableEq

namespace Message

def applicationId : Message → String
  | submitted event => event.applicationId
  | register application => application.applicationId
  | price checked => checked.application.applicationId
  | decide priced => priced.application.applicationId
  | accepted event => event.applicationId
  | issued _ event => event.applicationId

/-- What `_enter` and the stages send on, and what reaches a queue of what
`_decide` publishes. -/
def next : Message → List Message
  | submitted event => [register event]
  | register application => [price (checkRegister application)]
  | price checked => [decide (PolicyAdministration.price checked)]
  | decide priced =>
      match decideOn priced with
      | .accepted event => [accepted event]
      | .declined _ => []
  | accepted _ | issued .. => []

def verdicts : Message → List Verdict
  | decide priced => [decideOn priced]
  | _ => []

end Message

/-! ## Tables and transactions -/

structure ApplicationRow where
  id : String
  applicant : String
  product : String
  sumAssured : Int
  age : Int
deriving DecidableEq

structure PolicyRow where
  id : String
  applicationId : String
  applicant : String
  product : String
  premium : Int
deriving DecidableEq

/-- SQLite keeps an `INTEGER` in 64 bits, and `execute` raises on a larger one. -/
def FitsInteger (value : Int) : Prop := -2 ^ 63 ≤ value ∧ value < 2 ^ 63

instance (value : Int) : Decidable (FitsInteger value) := inferInstanceAs (Decidable (_ ∧ _))

def ApplicationRow.Storable (row : ApplicationRow) : Prop :=
  FitsInteger row.sumAssured ∧ FitsInteger row.age

instance (row : ApplicationRow) : Decidable row.Storable :=
  inferInstanceAs (Decidable (_ ∧ _))

def PolicyRow.Storable (row : PolicyRow) : Prop := FitsInteger row.premium

instance (row : PolicyRow) : Decidable row.Storable := inferInstanceAs (Decidable (FitsInteger _))

/-- A call of `_write` whose transaction is open: from `submit`, or from
`_issue` with the policy id and the envelope id it has drawn. -/
inductive Write
  | submit (row : ApplicationRow)
  | issue (event : ApplicationAccepted) (policyId messageId : String)
deriving DecidableEq

def ApplicationRow.submitted (row : ApplicationRow) : ApplicationSubmitted :=
  ⟨row.id, row.applicant, row.product, row.sumAssured, row.age⟩

def policyRow (event : ApplicationAccepted) (policyId : String) : PolicyRow :=
  ⟨policyId, event.applicationId, event.applicant, event.product, event.annualPremium⟩

def policyIssued (event : ApplicationAccepted) (policyId : String) : PolicyIssued :=
  ⟨policyId, event.applicationId, event.applicant, event.product, event.annualPremium⟩

def Write.Storable : Write → Prop
  | submit row => row.Storable
  | issue event policyId _ => (policyRow event policyId).Storable

instance (write : Write) : Decidable write.Storable := by
  rcases write with ⟨⟩ <;> unfold Write.Storable <;> infer_instance

def Write.record : Write → Message
  | submit row => .submitted row.submitted
  | issue event policyId messageId => .issued messageId (policyIssued event policyId)

/-! ## The system -/

/-- A handler of `_enter` or of a stage, at its publish. -/
structure Stage where
  message : Message
  out : Bool
deriving DecidableEq

structure Application where
  applications : List ApplicationRow
  policies : List PolicyRow
  /-- Every record committed, and those the relay has yet to mark as published. -/
  outbox : List Message
  pending : Multiset Message
  queues : Multiset Message
  /-- What has ever been on a queue. -/
  sent : List Message
  writes : Multiset Write
  stages : Multiset Stage
  verdicts : List Verdict
  accepted : Nat
  declined : Nat
  issued : Nat
  billing : Billing

inductive Step
  | submit (row : ApplicationRow)
  | commit (write : Write)
  /-- A transaction is rolled back, and its caller raises. -/
  | rollback (write : Write)
  | relay (record : Message)
  /-- The relay publishes a record it had published. -/
  | relayAgain (record : Message)
  /-- A handler takes a message; `_issue` draws the two ids. -/
  | deliver (message : Message) (policyId messageId : String)
  /-- A message is handed out again. -/
  | duplicate (message : Message)
  | publish (stage : Stage)
  | return_ (stage : Stage)
  /-- A stage raises or dies. -/
  | fail (stage : Stage)
  | bill (action : BillingAction)
deriving DecidableEq

namespace Application

def initial : Application where
  applications := []
  policies := []
  outbox := []
  pending := 0
  queues := 0
  sent := []
  writes := 0
  stages := 0
  verdicts := []
  accepted := 0
  declined := 0
  issued := 0
  billing := .initial

/-- Both tables have `id` as their primary key. -/
def KeyFree (state : Application) : Write → Prop
  | .submit row => row.id ∉ state.applications.map ApplicationRow.id
  | .issue _ policyId _ => policyId ∉ state.policies.map PolicyRow.id

instance (state : Application) (write : Write) : Decidable (state.KeyFree write) := by
  rcases write with ⟨⟩ <;> unfold KeyFree <;> infer_instance

def Enabled (state : Application) : Step → Prop
  | .submit _ => True
  | .commit write => write ∈ state.writes ∧ state.KeyFree write ∧ write.Storable
  | .rollback write => write ∈ state.writes
  | .relay record => record ∈ state.pending
  | .relayAgain record => record ∈ state.outbox
  | .deliver message _ _ => message ∈ state.queues
  | .duplicate message => message ∈ state.sent
  | .publish stage => stage ∈ state.stages ∧ stage.out = false
  | .return_ stage => stage ∈ state.stages ∧ stage.out = true
  | .fail stage => stage ∈ state.stages
  -- What is delivered to billing comes from its queue.
  | .bill action => state.billing.Enabled action ∧ action.delivers = false

instance (state : Application) (step : Step) : Decidable (state.Enabled step) := by
  rcases step with ⟨⟩ <;> unfold Enabled <;> infer_instance

def enqueue (state : Application) (messages : List Message) : Application :=
  { state with
    queues := Multiset.ofList messages + state.queues
    sent := state.sent ++ messages }

def insert (state : Application) : Write → Application
  | .submit row => { state with applications := state.applications ++ [row] }
  | .issue event policyId _ =>
      { state with
        policies := state.policies ++ [policyRow event policyId]
        issued := state.issued + 1 }

def count (state : Application) : List Verdict → Application
  | [.accepted _] => { state with accepted := state.accepted + 1 }
  | [.declined _] => { state with declined := state.declined + 1 }
  | _ => state

private theorem count_eq (state : Application) (verdicts : List Verdict) :
    state.count verdicts =
      { state with
        accepted := (state.count verdicts).accepted
        declined := (state.count verdicts).declined } := by
  unfold count
  split <;> rfl

def handle (state : Application) (policyId messageId : String) : Message → Application
  | .accepted event =>
      { state with writes := .issue event policyId messageId ::ₘ state.writes }
  | .issued envelopeId event =>
      { state with billing := state.billing.perform (.deliver envelopeId event) }
  | message => { state with stages := ⟨message, false⟩ ::ₘ state.stages }

def perform (state : Application) : Step → Application
  | .submit row => { state with writes := .submit row ::ₘ state.writes }
  | .commit write =>
      { state.insert write with
        writes := state.writes.erase write
        outbox := state.outbox ++ [write.record]
        pending := write.record ::ₘ state.pending }
  | .rollback write => { state with writes := state.writes.erase write }
  | .relay record => { state.enqueue [record] with pending := state.pending.erase record }
  | .relayAgain record => state.enqueue [record]
  | .deliver message policyId messageId =>
      handle { state with queues := state.queues.erase message } policyId messageId message
  | .duplicate message => state.enqueue [message]
  | .publish stage =>
      { state.enqueue stage.message.next with
        verdicts := state.verdicts ++ stage.message.verdicts
        stages := { stage with out := true } ::ₘ state.stages.erase stage }
  | .return_ stage =>
      { state.count stage.message.verdicts with stages := state.stages.erase stage }
  | .fail stage => { state with stages := state.stages.erase stage }
  | .bill action => { state with billing := state.billing.perform action }

theorem perform_return (state : Application) (stage : Stage) :
    state.perform (.return_ stage) =
      { state with
        stages := state.stages.erase stage
        accepted := (state.count stage.message.verdicts).accepted
        declined := (state.count stage.message.verdicts).declined } := by
  rw [perform, count_eq]

end Application

def application : TransitionSystem Application Step where
  Initial state := state = Application.initial
  Enabled := Application.Enabled
  perform := Application.perform

instance (state : Application) (step : Step) : Decidable (application.Enabled state step) :=
  inferInstanceAs (Decidable (state.Enabled step))

end AmqpApps.PolicyAdministration
