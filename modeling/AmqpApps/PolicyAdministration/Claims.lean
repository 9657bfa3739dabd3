import AmqpApps.Foundation.KeyedBags
import AmqpApps.PolicyAdministration.Policies

/-! # Claims: a question over the broker

A call of `submit` asks policies whether the policy is in force, and awaits an answer,
or a timeout; then it awaits its publish. Meanwhile the application runs as it does.
-/

namespace AmqpApps.PolicyAdministration

/-! ## The code between the awaits -/

inductive ClaimError
  | undecided (message : String)
  /-- Whatever else `ask` raises: the responder's error, or its own. -/
  | other
deriving DecidableEq

inductive ClaimOutcome
  | settled (event : ClaimSettled)
  | rejected (event : ClaimRejected)
deriving DecidableEq

def ClaimOutcome.isSettled : ClaimOutcome → Bool
  | settled _ => true
  | rejected _ => false

/-- A call of `submit`, the id it draws, and the number of its ask. -/
structure Claim where
  ask : Nat
  claimId : String
  policyId : String
  amount : Int
deriving DecidableEq

namespace Claim

def decide (claim : Claim) (status : PolicyStatus) : ClaimOutcome :=
  if status.inForce then .settled ⟨claim.claimId, claim.policyId, claim.amount⟩
  else .rejected ⟨claim.claimId, claim.policyId, "no policy in force"⟩

/-- What it raises when the ask times out. -/
def undecided (claim : Claim) : ClaimError :=
  .undecided (s!"could not establish whether {claim.policyId} is in force, so claim " ++
    s!"{claim.claimId} was neither settled nor rejected; it must be retried")

theorem decide_isSettled (claim : Claim) (status : PolicyStatus) :
    (claim.decide status).isSettled = status.inForce := by
  rw [decide]
  cases status.inForce <;> rfl

end Claim

structure ClaimsModule where
  settled : Nat
  rejected : Nat

namespace ClaimsModule

def started : ClaimsModule := ⟨0, 0⟩

def sent (claims : ClaimsModule) : ClaimOutcome → ClaimsModule
  | .settled _ => { claims with settled := claims.settled + 1 }
  | .rejected _ => { claims with rejected := claims.rejected + 1 }

end ClaimsModule

/-! ## The system -/

structure Query where
  ask : Nat
  policyId : String
deriving DecidableEq

def Claim.query (claim : Claim) : Query := ⟨claim.ask, claim.policyId⟩

/-- What the responder has sent back: a status, or the error it met. An onlooker notes
whether the table held the policy then. -/
structure Reply where
  ask : Nat
  answer : Option PolicyStatus
  held : Bool
deriving DecidableEq

inductive ClaimAwait
  | answer
  /-- The publish of a decision, which the broker may have taken. -/
  | publish (status : PolicyStatus) (held out : Bool)
deriving DecidableEq

def ClaimAwait.out : ClaimAwait → Option Bool
  | answer => none
  | publish _ _ out => some out

structure ClaimCall where
  claim : Claim
  await : ClaimAwait
deriving DecidableEq

/-- What the broker has taken of a call. -/
def ClaimCall.event (call : ClaimCall) : Option ClaimOutcome :=
  match call.await with
  | .publish status _ true => some (call.claim.decide status)
  | _ => none

/-- A published event, with what the onlooker noted: whether the table held the policy
when the lookup was answered, and whether it does now. -/
structure PublishedClaim where
  ask : Nat
  event : ClaimOutcome
  correlation : String
  heldThen : Bool
  heldNow : Bool
deriving DecidableEq

inductive Lookup
  | answered
  | timedOut
  | failed
deriving DecidableEq

structure EndedClaim where
  claim : Claim
  lookup : Lookup
  /-- What the broker has taken of it. -/
  event : Option ClaimOutcome
  result : Except ClaimError String

structure Claims where
  application : Application
  service : ClaimsModule
  /-- The number of the next ask. -/
  asks : Nat
  queries : Multiset Query
  replies : Multiset Reply
  calls : Multiset ClaimCall
  published : List PublishedClaim
  ended : Multiset EndedClaim
  submitted : List Claim

inductive ClaimsStep
  /-- The rest of the application takes a step. -/
  | application (step : Step)
  | submit (claimId policyId : String) (amount : Int)
  | answer (query : Query)
  /-- The responder raises, and says so. -/
  | fail (query : Query)
  /-- A query is handed out again. -/
  | redeliver (claim : Claim)
  | receive (call : ClaimCall) (reply : Reply)
  | timeout (call : ClaimCall)
  /-- The ask raises something else. -/
  | raise (call : ClaimCall)
  /-- The broker takes what a call publishes. -/
  | publish (call : ClaimCall)
  /-- The publish returns. -/
  | sent (call : ClaimCall)
  /-- The publish raises, whether the broker has taken the event or not. -/
  | unsent (call : ClaimCall)
deriving DecidableEq

namespace Claims

def initial : Claims where
  application := .initial
  service := .started
  asks := 0
  queries := 0
  replies := 0
  calls := 0
  published := []
  ended := 0
  submitted := []

def Enabled (state : Claims) : ClaimsStep → Prop
  | .application step => state.application.Enabled step
  | .submit .. => True
  | .answer query | .fail query => query ∈ state.queries
  | .redeliver claim => claim ∈ state.submitted
  -- The requester hands each ask its own answer.
  | .receive call reply =>
      call ∈ state.calls ∧ call.await.out = none ∧
        reply ∈ state.replies ∧ reply.ask = call.claim.ask
  | .timeout call | .raise call => call ∈ state.calls ∧ call.await.out = none
  | .publish call => call ∈ state.calls ∧ call.await.out = some false
  | .sent call => call ∈ state.calls ∧ call.await.out = some true
  | .unsent call => call ∈ state.calls ∧ call.await.out ≠ none

instance (state : Claims) (step : ClaimsStep) : Decidable (state.Enabled step) := by
  rcases step with ⟨⟩ <;> unfold Enabled <;> infer_instance

def goOn (state : Claims) (call : ClaimCall) (await : ClaimAwait) : Claims :=
  { state with calls := { call with await } ::ₘ state.calls.erase call }

def finish (state : Claims) (call : ClaimCall) (lookup : Lookup)
    (result : Except ClaimError String) : Claims :=
  { state with
    calls := state.calls.erase call
    ended := ⟨call.claim, lookup, call.event, result⟩ ::ₘ state.ended }

def perform (state : Claims) : ClaimsStep → Claims
  | .application step => { state with application := state.application.perform step }
  | .submit claimId policyId amount =>
      let claim : Claim := ⟨state.asks, claimId, policyId, amount⟩
      { state with
        asks := state.asks + 1
        queries := claim.query ::ₘ state.queries
        calls := ⟨claim, .answer⟩ ::ₘ state.calls
        submitted := state.submitted ++ [claim] }
  | .answer query =>
      let status := statusOf state.application.policies query.policyId
      let held := state.application.holds query.policyId
      { state with
        queries := state.queries.erase query
        replies := ⟨query.ask, some status, held⟩ ::ₘ state.replies }
  | .fail query =>
      { state with
        queries := state.queries.erase query
        replies := ⟨query.ask, none, false⟩ ::ₘ state.replies }
  | .redeliver claim => { state with queries := claim.query ::ₘ state.queries }
  | .receive call reply =>
      let received := { state with replies := state.replies.erase reply }
      match reply.answer with
      | some status => received.goOn call (.publish status reply.held false)
      | none => received.finish call .failed (.error .other)
  | .timeout call => state.finish call .timedOut (.error call.claim.undecided)
  | .raise call => state.finish call .failed (.error .other)
  | .publish call =>
      match call.await with
      | .answer => state
      | .publish status held _ =>
          let event : PublishedClaim :=
            ⟨call.claim.ask, call.claim.decide status, call.claim.policyId, held,
              state.application.holds call.claim.policyId⟩
          { state.goOn call (.publish status held true) with
            published := state.published ++ [event] }
  | .sent call =>
      match call.await with
      | .answer => state
      | .publish status _ _ =>
          { state.finish call .answered (.ok call.claim.claimId) with
            service := state.service.sent (call.claim.decide status) }
  | .unsent call => state.finish call .answered (.error .other)

end Claims

def claims : TransitionSystem Claims ClaimsStep where
  Initial state := state = Claims.initial
  Enabled := Claims.Enabled
  perform := Claims.perform

instance (state : Claims) (step : ClaimsStep) : Decidable (claims.Enabled state step) :=
  inferInstanceAs (Decidable (state.Enabled step))

end AmqpApps.PolicyAdministration
