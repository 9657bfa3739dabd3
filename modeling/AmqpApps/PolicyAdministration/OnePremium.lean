import AmqpApps.PolicyAdministration.Messages
import AmqpApps.PolicyAdministration.Prospects
import Mathlib.Data.List.Perm.Subperm

/-! # One application, one policy, one premium

Billing recognises a message it has seen. No handler before it does, and each
mints what the next hop goes by: so an application keeps to one policy as long
as its messages are handed out again only when nothing has come of them.
-/

namespace AmqpApps.PolicyAdministration

/-- A message on its way to a policy is handed out or published again only when
nothing else of its application is on the way and there is no policy; and no
charge raises. -/
def OneAtATime (state : Application) : Step → Prop
  | .relayAgain message | .duplicate message =>
      message.insurable = true → state.prospects message.applicationId = 0
  | .bill action => NeverRaises state.billing action
  | _ => True

instance (state : Application) (step : Step) : Decidable (OneAtATime state step) := by
  rcases step with ⟨⟩ <;> unfold OneAtATime <;> infer_instance

private theorem OneAtATime.single {state : Application} {step : Step}
    (one : OneAtATime state step) :
    ∀ message ∈ step.repeated, message.insurable = true →
      state.prospects message.applicationId = 0 := by
  cases step with
  | relayAgain record =>
      intro message member
      rcases List.mem_singleton.mp member with rfl
      exact one
  | duplicate sent =>
      intro message member
      rcases List.mem_singleton.mp member with rfl
      exact one
  | _ => intro message member; cases member

/-! ## Where a message comes from -/

def Message.isIssued : Message → Bool
  | issued .. => true
  | _ => false

def Message.issuedFor (applicationId : String) (message : Message) : Bool :=
  message.isIssued && message.applicationId == applicationId

theorem next_not_issued (message next : Message) (member : next ∈ message.next) :
    next.isIssued = false ∧ next.applicationId = message.applicationId := by
  cases message with
  | decide priced =>
      cases refer : priced.refer with
      | true => simp [Message.next, decideOn, refer] at member
      | false =>
          simp only [Message.next, decideOn, refer, Bool.false_eq_true, if_false,
            List.mem_singleton] at member
          subst member
          exact ⟨rfl, rfl⟩
  | accepted event => cases member
  | issued messageId event => cases member
  | _ =>
      rcases List.mem_singleton.mp member with rfl
      exact ⟨rfl, rfl⟩

namespace Application

def Genuine (state : Application) (message : Message) : Prop :=
  message.applicationId ∈ state.applications.map ApplicationRow.id ∧
    (message.isIssued = true → message ∈ state.outbox)

def Grounded (state : Application) : Write → Prop
  | .submit _ => True
  | .issue event _ _ => event.applicationId ∈ state.applications.map ApplicationRow.id

structure Traced (state : Application) : Prop where
  recorded : ∀ message ∈ state.outbox, state.Genuine message
  pending : ∀ message ∈ state.pending, state.Genuine message
  queued : ∀ message ∈ state.queues, state.Genuine message
  sent : ∀ message ∈ state.sent, state.Genuine message
  staged : ∀ stage ∈ state.stages, state.Genuine stage.message
  grounded : ∀ write ∈ state.writes, state.Grounded write
  billed : state.billing.Sourced fun messageId event => .issued messageId event ∈ state.outbox

private theorem Traced.initial : Traced initial where
  recorded := by simp [Application.initial]
  pending := by simp [Application.initial]
  queued := by simp [Application.initial]
  sent := by simp [Application.initial]
  staged := by simp [Application.initial]
  grounded := by simp [Application.initial]
  billed := ⟨by simp [Application.initial, Billing.initial],
    by simp [Application.initial, Billing.initial]⟩

namespace Traced

variable {state : Application}

private theorem carries (traced : Traced state) : state.Carries state.Genuine state.Grounded where
  recorded := traced.recorded
  pending := traced.pending
  queued := traced.queued
  sent := traced.sent
  staged := traced.staged
  written := traced.grounded
  billed :=
    ⟨fun call member => traced.recorded _ (traced.billed.1 call member),
      fun taken member => traced.recorded _ (traced.billed.2 taken member)⟩

private theorem of_carries (carries : state.Carries state.Genuine state.Grounded) :
    Traced state where
  recorded := carries.recorded
  pending := carries.pending
  queued := carries.queued
  sent := carries.sent
  staged := carries.staged
  grounded := carries.written
  billed :=
    ⟨fun call member => (carries.billed.1 call member).2 rfl,
      fun taken member => (carries.billed.2 taken member).2 rfl⟩

private theorem step (traced : Traced state) (step : Step) (enabled : state.Enabled step) :
    Traced (state.perform step) := by
  rcases state.kept step with ⟨applications, -, records⟩
  have rows := List.map_subset ApplicationRow.id applications
  have closed : Closed (state.perform step).Genuine (state.perform step).Grounded := by
    refine ⟨?_, fun event genuine _ _ => genuine.1, fun _ => trivial⟩
    intro message genuine next member
    rcases next_not_issued message next member with ⟨other, same⟩
    exact ⟨by rw [same]; exact genuine.1, by simp [other]⟩
  have before : state.Carries (state.perform step).Genuine (state.perform step).Grounded := by
    apply traced.carries.mono
    · intro message genuine
      exact ⟨rows genuine.1, fun isIssued => records (genuine.2 isIssued)⟩
    · intro write grounded
      cases write with
      | submit row => trivial
      | issue event policyId messageId => exact rows grounded
  refine of_carries (before.step closed step enabled ?_)
  intro write member committed
  rw [committed]
  refine ⟨?_, fun _ => List.mem_append_right _ (List.mem_singleton_self _)⟩
  cases write with
  | submit row =>
      exact List.mem_map_of_mem (List.mem_append_right _ (List.mem_singleton_self row))
  | issue event policyId messageId => exact traced.grounded _ member

private theorem repeated (traced : Traced state) (step : Step) (enabled : state.Enabled step) :
    ∀ message ∈ step.repeated, state.Genuine message := by
  intro message member
  cases step with
  | relayAgain record =>
      rw [List.mem_singleton.mp member]
      exact traced.recorded record enabled
  | duplicate sent =>
      rw [List.mem_singleton.mp member]
      exact traced.sent sent enabled
  | _ => cases member

end Traced

/-! ## Counting the rows -/

/-- Applications are told apart by id, and a policy has one record of its own. -/
structure Tabled (state : Application) : Prop where
  distinct : (state.applications.map ApplicationRow.id).Nodup
  announced : ∀ applicationId, state.outbox.countP (Message.issuedFor applicationId) =
    state.policies.countP (PolicyRow.isFor applicationId)

variable {state : Application}

private theorem Tabled.commit (tabled : Tabled state) {write : Write} (free : state.KeyFree write) :
    Tabled (state.perform (.commit write)) := by
  cases write with
  | submit row =>
      constructor
      · simp only [perform, insert, List.map_append, List.map_cons, List.map_nil]
        apply List.nodup_append.mpr
        refine ⟨tabled.distinct, List.nodup_singleton _, ?_⟩
        intro one first other second same
        rw [same, List.mem_singleton.mp second] at first
        exact free first
      · intro applicationId
        simp only [perform, insert, countP_concat, tabled.announced, Write.record,
          Message.issuedFor, Message.isIssued, Bool.false_and, Bool.toNat_false, add_zero]
  | issue event policyId messageId =>
      refine ⟨tabled.distinct, ?_⟩
      intro applicationId
      simp only [perform, insert, countP_concat, tabled.announced, Write.record,
        Message.issuedFor, Message.isIssued, Message.applicationId, policyIssued, policyRow,
        PolicyRow.isFor, Bool.true_and]

theorem Tabled.step (tabled : Tabled state) (step : Step) (enabled : state.Enabled step) :
    Tabled (state.perform step) := by
  cases step with
  | commit write => exact tabled.commit enabled.2.1
  | deliver message policyId messageId =>
      cases message <;> exact ⟨tabled.distinct, tabled.announced⟩
  | return_ stage =>
      rw [perform_return]
      exact ⟨tabled.distinct, tabled.announced⟩
  | _ => exact ⟨tabled.distinct, tabled.announced⟩

private theorem Tabled.submissions_le_one (tabled : Tabled state) (applicationId : String) :
    state.submissions applicationId ≤ 1 := by
  have once := List.nodup_iff_count_le_one.mp tabled.distinct applicationId
  rw [List.count, List.countP_map] at once
  exact once

private theorem submissions_pos {applicationId : String}
    (known : applicationId ∈ state.applications.map ApplicationRow.id) :
    0 < state.submissions applicationId := by
  rcases List.mem_map.mp known with ⟨row, member, same⟩
  exact List.countP_pos_iff.mpr ⟨row, member, by simp [same]⟩

/-- There is no more to come of an application than was submitted. -/
def Bounded (state : Application) : Prop :=
  ∀ applicationId, state.prospects applicationId ≤ state.submissions applicationId

private theorem Bounded.step (bounded : Bounded state) (traced : Traced state) (step : Step)
    (one : OneAtATime state step) (enabled : state.Enabled step) :
    Bounded (state.perform step) := by
  intro applicationId
  have before := bounded applicationId
  have moved := prospects_step applicationId step enabled
  rcases Nat.eq_zero_or_pos (step.repeated.countP (Message.headsFor applicationId)) with
    new | again
  · omega
  · -- A message of this application is handed out again: nothing else was there.
    rcases List.countP_pos_iff.mp again with ⟨message, member, heads⟩
    rw [Message.headsFor, Bool.and_eq_true, beq_iff_eq] at heads
    have known := (traced.repeated step enabled message member).1
    have nothing := one.single message member heads.1
    rw [heads.2] at known nothing
    have submitted := submissions_pos known
    have once := (List.countP_le_length (p := Message.headsFor applicationId)).trans
      step.repeated_length
    omega

end Application

/-! ## The premium -/

structure Insured (state : Application) : Prop where
  traced : state.Traced
  tabled : state.Tabled
  bounded : state.Bounded

variable {state : Application}

private theorem insured (reached : application.Reached OneAtATime state) : Insured state := by
  apply reached.invariant Insured
  · intro state first
    cases first
    refine ⟨.initial, ⟨List.nodup_nil, fun _ => rfl⟩, fun _ => Nat.le_refl 0⟩
  · intro state step insured one enabled
    exact ⟨insured.traced.step step enabled, insured.tabled.step step enabled,
      insured.bounded.step insured.traced step one enabled⟩

private theorem Insured.policies_le_one (insured : Insured state) (applicationId : String) :
    state.policies.countP (PolicyRow.isFor applicationId) ≤ 1 := by
  have bounded := insured.bounded applicationId
  have once := insured.tabled.submissions_le_one applicationId
  simp only [Application.prospects] at bounded
  omega

/-- The charges of an application are of messages that its policies announced. -/
theorem Insured.taken_le_policies (insured : Insured state)
    (charged : ChargedOnce state.billing) (applicationId : String) :
    state.billing.history.taken.countP (fun taken => taken.2.applicationId == applicationId) ≤
      state.policies.countP (PolicyRow.isFor applicationId) := by
  let announcement : String × PolicyIssued → Message := fun taken => .issued taken.1 taken.2
  have injective : Function.Injective announcement := by
    rintro ⟨firstId, first⟩ ⟨secondId, second⟩ same
    cases same
    rfl
  have distinct : ((state.billing.history.taken.filter fun taken =>
      taken.2.applicationId == applicationId).map announcement).Nodup :=
    (charged.once.of_map.filter _).map injective
  have announced : ((state.billing.history.taken.filter fun taken =>
      taken.2.applicationId == applicationId).map announcement) ⊆
        state.outbox.filter (Message.issuedFor applicationId) := by
    intro message member
    rcases List.mem_map.mp member with ⟨taken, chosen, same⟩
    rcases List.mem_filter.mp chosen with ⟨present, its⟩
    rw [← same]
    exact List.mem_filter.mpr ⟨insured.traced.billed.2 taken present, its⟩
  have most := (distinct.subperm announced).length_le
  rw [List.length_map, ← List.countP_eq_length_filter, ← List.countP_eq_length_filter,
    insured.tabled.announced] at most
  exact most

/-- As long as a message on its way to a policy is handed out again only when
nothing has come of its application, and no charge raises, an application has at
most one policy and at most one of the charges. -/
theorem one_policy_one_premium (reached : application.Reached OneAtATime state) :
    state.billing.charges = state.billing.history.taken.map (fun taken => taken.2.policyId) ∧
      ∀ applicationId,
        state.policies.countP (PolicyRow.isFor applicationId) ≤ 1 ∧
        state.billing.history.taken.countP
          (fun taken => taken.2.applicationId == applicationId) ≤ 1 := by
  have insured := insured reached
  have charged := ChargedOnce.of_never_raised
    (billing_reached (fun _ _ quiet => quiet) (fun _ _ _ => trivial) reached)
  refine ⟨charged.recorded, ?_⟩
  intro applicationId
  have one := insured.policies_le_one applicationId
  exact ⟨one, (insured.taken_le_policies charged applicationId).trans one⟩

/-! ## A message handed out twice -/

def applicant : ApplicationRow := ⟨"APP-1", "A. Applicant", "TERM-LIFE", 100000, 40⟩

def submission : ApplicationSubmitted := applicant.submitted

def priced : Priced := price (checkRegister submission)

def acceptance : ApplicationAccepted := ⟨"APP-1", "A. Applicant", "TERM-LIFE", 100000, 120⟩

def underwriting : List Step :=
  [.deliver (.submitted submission) "" "", .publish ⟨.submitted submission, false⟩,
    .return_ ⟨.submitted submission, true⟩,
    .deliver (.register submission) "" "", .publish ⟨.register submission, false⟩,
    .return_ ⟨.register submission, true⟩,
    .deliver (.price (checkRegister submission)) "" "",
    .publish ⟨.price (checkRegister submission), false⟩,
    .return_ ⟨.price (checkRegister submission), true⟩,
    .deliver (.decide priced) "" "", .publish ⟨.decide priced, false⟩,
    .return_ ⟨.decide priced, true⟩]

def issuing (policyId messageId : String) : List Step :=
  [.deliver (.accepted acceptance) policyId messageId,
    .commit (.issue acceptance policyId messageId),
    .relay (.issued messageId (policyIssued acceptance policyId))]

def premium (policyId messageId : String) : List Step :=
  [.deliver (.issued messageId (policyIssued acceptance policyId)) "" "",
    .bill (.claim ⟨messageId, policyIssued acceptance policyId, .claim⟩),
    .bill (.publish ⟨messageId, policyIssued acceptance policyId, .publish false⟩),
    .bill (.sent ⟨messageId, policyIssued acceptance policyId, .publish true⟩),
    .bill (.confirm ⟨messageId, policyIssued acceptance policyId, .confirmation⟩)]

/-- The first delivery of the submission is lost with its handler, and billing
is sent the policy three times. -/
theorem redelivered_application_charged_once : ∃ state : Application,
    state.billing.charges = ["POL-1"] ∧
      state.policies.countP (PolicyRow.isFor "APP-1") = 1 ∧
      state.billing.history.taken.countP (fun taken => taken.2.applicationId == "APP-1") ≤ 1 := by
  have reached : application.Reached OneAtATime _ :=
    .of_run ([.submit applicant, .commit (.submit applicant), .relay (.submitted submission),
        .deliver (.submitted submission) "" "", .fail ⟨.submitted submission, false⟩,
        .duplicate (.submitted submission)] ++
      underwriting ++ issuing "POL-1" "message-1" ++ premium "POL-1" "message-1" ++
      [.relayAgain (.issued "message-1" (policyIssued acceptance "POL-1")),
        .deliver (.issued "message-1" (policyIssued acceptance "POL-1")) "" "",
        .duplicate (.issued "message-1" (policyIssued acceptance "POL-1")),
        .deliver (.issued "message-1" (policyIssued acceptance "POL-1")) "" "",
        .bill (.claim ⟨"message-1", policyIssued acceptance "POL-1", .claim⟩),
        .bill (.claim ⟨"message-1", policyIssued acceptance "POL-1", .claim⟩)]) (.start rfl) rfl
  exact ⟨_, by decide, by decide, ((one_policy_one_premium reached).2 "APP-1").2⟩

def NothingFails (_ : Application) : Step → Prop
  | .rollback _ | .fail _ | .bill (.raise _) | .bill (.die _) => False
  | _ => True

instance (state : Application) (step : Step) : Decidable (NothingFails state step) := by
  rcases step with _ | _ | _ | _ | _ | _ | _ | _ | _ | _ | ⟨⟨⟩⟩ <;> unfold NothingFails <;>
    infer_instance

/-- The acceptance is delivered twice, and `_issue` draws new ids each time. -/
theorem two_policies_two_premiums : ¬ ∀ state : Application,
    application.Reached NothingFails state → ∀ applicationId,
      state.policies.countP (PolicyRow.isFor applicationId) ≤ 1 ∧
        state.billing.history.taken.countP
          (fun taken => taken.2.applicationId == applicationId) ≤ 1 := by
  intro once
  have reached : application.Reached NothingFails _ :=
    .of_run ([.submit applicant, .commit (.submit applicant), .relay (.submitted submission)] ++
      underwriting ++ issuing "POL-1" "message-1" ++ premium "POL-1" "message-1" ++
      [.duplicate (.accepted acceptance)] ++
      issuing "POL-2" "message-2" ++ premium "POL-2" "message-2") (.start rfl) rfl
  have charged := (once _ reached "APP-1").2
  revert charged
  decide

end AmqpApps.PolicyAdministration
