import AmqpApps.PolicyAdministration.Justification
import Mathlib.Tactic.Abel

/-! # What is on its way

In a run where every message is handled once and nothing fails, an application
on record is always in exactly one place: on its way, or decided. So is an
acceptance on its way to a policy, and a policy on its way to its premium. Each
is an equation of bags, of which a step moves at most one member.
-/

namespace AmqpApps.PolicyAdministration

/-! ## What messages carry -/

variable {Piece : Type u}

def Stage.moving (part : Message → Multiset Piece) (stage : Stage) : Multiset Piece :=
  if stage.out then 0 else part stage.message

@[simp] theorem Stage.moving_pending (part : Message → Multiset Piece) (message : Message) :
    Stage.moving part ⟨message, false⟩ = part message := rfl

@[simp] theorem Stage.moving_out (part : Message → Multiset Piece) (message : Message) :
    Stage.moving part ⟨message, true⟩ = 0 := rfl

def Application.carrying (state : Application) (part : Message → Multiset Piece) :
    Multiset Piece :=
  state.pending.bind part + state.queues.bind part + state.stages.bind (Stage.moving part)

/-- What a step puts on its way, and what it takes off it. -/
def Step.produced (part : Message → Multiset Piece) : Step → Multiset Piece
  | commit write => part write.record
  | publish stage => (Multiset.ofList stage.message.next).bind part
  | _ => 0

def Step.consumed (part : Message → Multiset Piece) : Step → Multiset Piece
  | deliver (.accepted event) _ _ => part (.accepted event)
  | deliver (.issued messageId event) _ _ => part (.issued messageId event)
  | publish stage => part stage.message
  | _ => 0

def Message.ids : Message → Multiset String
  | issued messageId _ => {messageId}
  | _ => 0

def Write.ids : Write → Multiset String
  | issue _ _ messageId => {messageId}
  | submit _ => 0

def Charge.unclaimed (call : Charge) : Multiset String :=
  if call.await = .claim then {call.messageId} else 0

def Application.unclaimed (state : Application) : Multiset String :=
  state.carrying Message.ids + state.writes.bind Write.ids +
    state.billing.calls.bind Charge.unclaimed

def Application.Fresh (state : Application) (messageId : String) : Prop :=
  messageId ∉ state.unclaimed ∧ state.billing.seen messageId = none

/-- Every message is delivered and handled once, and nothing that has been
submitted fails. -/
def Faultless (state : Application) : Step → Prop
  | .rollback (.issue ..) | .relayAgain _ | .duplicate _ | .fail _ => False
  | .bill (.raise _) | .bill (.die _) => False
  | .deliver (.accepted _) _ messageId => state.Fresh messageId
  | _ => True

instance (state : Application) (messageId : String) : Decidable (state.Fresh messageId) :=
  inferInstanceAs (Decidable (_ ∧ _))

instance (state : Application) (step : Step) : Decidable (Faultless state step) := by
  rcases step with _ | _ | ⟨⟨⟩⟩ | _ | _ | ⟨⟨⟩, _, _⟩ | _ | _ | _ | _ | ⟨⟨⟩⟩ <;>
    unfold Faultless <;> infer_instance

namespace Application

variable {state : Application}

/-- What is on its way changes by what a step puts there and takes away. -/
theorem carrying_step (part : Message → Multiset Piece) (step : Step)
    (faultless : Faultless state step) (enabled : state.Enabled step) :
    (state.perform step).carrying part + step.consumed part =
      state.carrying part + step.produced part := by
  cases step with
  | submit row => rfl
  | commit write =>
      cases write <;>
        simp only [perform, insert, carrying, Step.consumed, Step.produced, Multiset.cons_bind] <;>
        abel
  | rollback write => rfl
  | relay record =>
      have member : record ∈ state.pending := enabled
      simp only [perform, enqueue, carrying, Step.consumed, Step.produced, Multiset.add_bind,
        bind_erase part member, Multiset.coe_singleton, Multiset.singleton_bind]
      abel
  | relayAgain record => exact faultless.elim
  | deliver message policyId messageId =>
      have member : message ∈ state.queues := enabled
      cases message <;>
        simp only [perform, handle, carrying, Step.consumed, Step.produced,
          bind_erase part member, Multiset.cons_bind, Stage.moving_pending] <;>
        abel
  | duplicate message => exact faultless.elim
  | publish stage =>
      rcases stage with ⟨message, out⟩
      rcases enabled with ⟨member, pending⟩
      cases pending
      simp only [perform, enqueue, carrying, Step.consumed, Step.produced, Multiset.add_bind,
        Multiset.cons_bind, bind_erase (Stage.moving part) member, Stage.moving_pending,
        Stage.moving_out]
      abel
  | return_ stage =>
      rcases stage with ⟨message, out⟩
      rcases enabled with ⟨member, sent⟩
      cases sent
      simp only [perform_return, carrying, Step.consumed, Step.produced,
        bind_erase (Stage.moving part) member, Stage.moving_out, zero_add]
  | fail stage => exact faultless.elim
  | bill action => rfl

private theorem carrying_still (part : Message → Multiset Piece) {step : Step}
    (faultless : Faultless state step) (enabled : state.Enabled step)
    (consumed : step.consumed part = 0) (produced : step.produced part = 0) :
    (state.perform step).carrying part = state.carrying part := by
  have moved := carrying_step part step faultless enabled
  rw [consumed, produced, add_zero, add_zero] at moved
  exact moved

end Application

/-! ## Verdicts -/

def Message.decision : Message → Multiset Verdict
  | submitted event => {decideOn (PolicyAdministration.price (checkRegister event))}
  | register application => {decideOn (PolicyAdministration.price (checkRegister application))}
  | price checked => {decideOn (PolicyAdministration.price checked)}
  | decide priced => {decideOn priced}
  | accepted _ | issued .. => 0

/-- A handler reaches the verdict or passes it on. -/
theorem decision_next (message : Message) :
    message.decision =
      Multiset.ofList message.verdicts + (Multiset.ofList message.next).bind Message.decision := by
  cases message with
  | decide priced =>
      cases verdict : decideOn priced <;>
        simp [Message.decision, Message.verdicts, Message.next, verdict]
  | _ => simp [Message.decision, Message.verdicts, Message.next]

namespace Application

variable {state : Application}

/-- An application on record is decided, or it is on its way to a verdict. -/
def Deciding (state : Application) : Prop :=
  (Multiset.ofList state.applications).map ApplicationRow.outcome =
    Multiset.ofList state.verdicts + state.carrying Message.decision

theorem Deciding.step (deciding : Deciding state) (step : Step)
    (faultless : Faultless state step) (enabled : state.Enabled step) :
    Deciding (state.perform step) := by
  have moved := carrying_step Message.decision step faultless enabled
  rw [Deciding] at deciding ⊢
  cases step with
  | commit write =>
      simp only [Step.consumed, Step.produced, add_zero] at moved
      rw [moved, ← add_assoc]
      cases write with
      | submit row =>
          simp only [perform, insert, ← Multiset.coe_add, Multiset.map_add, deciding]
          rfl
      | issue event policyId messageId =>
          simp only [perform, insert, deciding]
          exact (add_zero _).symm
  | publish stage =>
      simp only [Step.consumed, Step.produced, decision_next stage.message] at moved
      have passed : Multiset.ofList stage.message.verdicts +
          (state.perform (.publish stage)).carrying Message.decision =
            state.carrying Message.decision := by
        apply add_right_cancel (b := (Multiset.ofList stage.message.next).bind Message.decision)
        rw [← moved]
        abel
      simp only [perform, ← Multiset.coe_add, add_assoc] at passed ⊢
      rw [passed]
      exact deciding
  | deliver message policyId messageId =>
      cases message <;> rw [carrying_still Message.decision faultless enabled rfl rfl] <;>
        exact deciding
  | return_ stage =>
      rw [carrying_still Message.decision faultless enabled rfl rfl, perform_return]
      exact deciding
  | _ =>
      rw [carrying_still Message.decision faultless enabled rfl rfl]
      exact deciding

end Application

/-! ## Policies -/

structure Cover where
  applicationId : String
  applicant : String
  product : String
  premium : Int
deriving DecidableEq

def ApplicationAccepted.cover (event : ApplicationAccepted) : Cover :=
  ⟨event.applicationId, event.applicant, event.product, event.annualPremium⟩

def PolicyRow.cover (row : PolicyRow) : Cover :=
  ⟨row.applicationId, row.applicant, row.product, row.premium⟩

def Verdict.covers : Verdict → Multiset Cover
  | accepted event => {event.cover}
  | declined _ => 0

def Message.covers : Message → Multiset Cover
  | accepted event => {event.cover}
  | _ => 0

def Write.covers : Write → Multiset Cover
  | issue event _ _ => {event.cover}
  | submit _ => 0

/-- Handed to `_enter` or to a stage, and not to another module. -/
def Message.underwritten : Message → Bool
  | accepted _ | issued .. => false
  | _ => true

private theorem covers_next (message : Message) :
    (Multiset.ofList message.next).bind Message.covers =
      (Multiset.ofList message.verdicts).bind Verdict.covers := by
  cases message with
  | decide priced =>
      cases verdict : decideOn priced <;>
        simp [Message.verdicts, Message.next, verdict, Message.covers, Verdict.covers]
  | _ => simp [Message.verdicts, Message.next, Message.covers]

private theorem covers_underwritten {message : Message}
    (underwritten : message.underwritten = true) :
    message.covers = 0 := by
  cases message with
  | accepted event => cases underwritten
  | _ => rfl

namespace Application

variable {state : Application}

/-- Handlers of underwriting hold messages of underwriting. -/
def Staffed (state : Application) : Prop :=
  ∀ stage ∈ state.stages, stage.message.underwritten = true

theorem Staffed.step (staffed : Staffed state) (step : Step) (enabled : state.Enabled step) :
    Staffed (state.perform step) := by
  have left : ∀ stage, ∀ other ∈ state.stages.erase stage, other.message.underwritten = true :=
    fun stage other member => staffed other (Multiset.mem_of_mem_erase member)
  cases step with
  | commit write => cases write <;> exact staffed
  | deliver message policyId messageId =>
      cases message with
      | accepted event => exact staffed
      | issued envelopeId event => exact staffed
      | _ => exact Multiset.forall_mem_cons.mpr ⟨rfl, staffed⟩
  | publish stage => exact forall_cons_erase (staffed stage enabled.1) staffed
  | return_ stage =>
      rw [perform_return]
      exact left stage
  | fail stage => exact left stage
  | _ => exact staffed

def Covering (state : Application) : Prop :=
  (Multiset.ofList state.verdicts).bind Verdict.covers =
    (Multiset.ofList state.policies).map PolicyRow.cover + state.carrying Message.covers +
      state.writes.bind Write.covers

theorem Covering.step (covering : Covering state) (staffed : Staffed state) (step : Step)
    (faultless : Faultless state step) (enabled : state.Enabled step) :
    Covering (state.perform step) := by
  have moved := carrying_step Message.covers step faultless enabled
  rw [Covering] at covering ⊢
  cases step with
  | submit row =>
      rw [carrying_still Message.covers faultless enabled rfl rfl]
      simpa [perform, Write.covers] using covering
  | commit write =>
      simp only [Step.consumed, Step.produced, add_zero] at moved
      rw [moved]
      cases write with
      | submit row =>
          rw [bind_erase Write.covers enabled.1] at covering
          simpa [perform, insert, Write.record, Message.covers, Write.covers] using covering
      | issue event policyId messageId =>
          rw [bind_erase Write.covers enabled.1] at covering
          simp only [perform, insert, Write.record, Message.covers, covering, Write.covers,
            ← Multiset.coe_add, Multiset.map_add, add_zero]
          have written : (Multiset.ofList [policyRow event policyId]).map PolicyRow.cover =
              {event.cover} := rfl
          rw [written]
          abel
  | rollback write =>
      rw [carrying_still Message.covers faultless enabled rfl rfl]
      cases write with
      | submit row =>
          rw [bind_erase Write.covers enabled, Write.covers, zero_add] at covering
          exact covering
      | issue event policyId messageId => exact faultless.elim
  | deliver message policyId messageId =>
      cases message with
      | accepted event =>
          simp only [Step.consumed, Step.produced, add_zero, Message.covers] at moved
          simp only [perform, handle, Multiset.cons_bind, Write.covers] at moved ⊢
          rw [covering, ← moved]
          abel
      | _ =>
          rw [carrying_still Message.covers faultless enabled rfl rfl]
          exact covering
  | publish stage =>
      have mine := covers_underwritten (staffed stage enabled.1)
      simp only [Step.consumed, Step.produced, mine, covers_next, add_zero] at moved
      rw [moved]
      simp only [perform, enqueue, ← Multiset.coe_add, Multiset.add_bind, covering]
      abel
  | return_ stage =>
      rw [carrying_still Message.covers faultless enabled rfl rfl, perform_return]
      exact covering
  | _ =>
      rw [carrying_still Message.covers faultless enabled rfl rfl]
      exact covering

end Application

/-! ## Premiums -/

def PolicyRow.charged (row : PolicyRow) : PublishedCharge :=
  ⟨⟨row.id, row.applicant, row.premium⟩, row.applicationId⟩

def Message.premiums : Message → Multiset PublishedCharge
  | issued _ event => {premiumCharged event}
  | _ => 0

def Charge.due (call : Charge) : Multiset PublishedCharge :=
  if call.await = .claim ∨ call.await = .publish false then {premiumCharged call.policy} else 0

def Charge.unsent (call : Charge) : Multiset String :=
  if call.await = .publish false then {call.policy.policyId} else 0

private theorem premiums_underwritten {message : Message}
    (underwritten : message.underwritten = true) :
    message.premiums = 0 := by
  cases message with
  | issued messageId event => cases underwritten
  | _ => rfl

private theorem ids_underwritten {message : Message} (underwritten : message.underwritten = true) :
    message.ids = 0 := by
  cases message with
  | issued messageId event => cases underwritten
  | _ => rfl

private theorem next_unissued {part : Message → Multiset Piece}
    (others : ∀ message : Message, message.isIssued = false → part message = 0)
    (message : Message) : (Multiset.ofList message.next).bind part = 0 := by
  apply Multiset.eq_zero_of_forall_notMem
  intro piece member
  rcases Multiset.mem_bind.mp member with ⟨next, sent, contributed⟩
  rw [others next (next_not_issued message next sent).1] at contributed
  exact Multiset.notMem_zero piece contributed

private theorem premiums_unissued (message : Message) (unissued : message.isIssued = false) :
    message.premiums = 0 := by
  cases message with
  | issued messageId event => cases unissued
  | _ => rfl

private theorem ids_unissued (message : Message) (unissued : message.isIssued = false) :
    message.ids = 0 := by
  cases message with
  | issued messageId event => cases unissued
  | _ => rfl

def Smoothly (_ : Billing) : BillingAction → Prop
  | .raise _ | .die _ => False
  | _ => True

theorem Faultless.smoothly {state : Application} {action : BillingAction}
    (faultless : Faultless state (.bill action)) : Smoothly state.billing action := by
  cases action with
  | raise call => exact faultless
  | die call => exact faultless
  | _ => trivial

structure Billing.Smooth (state : Billing) : Prop where
  claimed : ∀ call ∈ state.calls, call.await ≠ .claim → state.seen call.messageId ≠ none
  unreleased : ∀ call ∈ state.calls, call.await ≠ .release
  charges : Multiset.ofList state.charges =
    (Multiset.ofList state.published).map (fun charge => charge.event.policyId) +
      state.calls.bind Charge.unsent

namespace Billing.Smooth

variable {state : Billing} {call : Charge}

private theorem initial : Billing.initial.Smooth where
  claimed _ member := absurd member (Multiset.notMem_zero _)
  unreleased _ member := absurd member (Multiset.notMem_zero _)
  charges := rfl

private theorem seen_mark (messageId : String) (mark : Seen) {other : String}
    (known : state.seen other ≠ none) : (state.mark messageId (some mark)).seen other ≠ none := by
  by_cases same : other = messageId
  · subst same
    simp [Billing.mark]
  · simpa [Billing.mark, Function.update_of_ne same] using known

private theorem left (smooth : state.Smooth) :
    (∀ other ∈ state.calls.erase call, other.await ≠ .claim →
      state.seen other.messageId ≠ none) ∧
    ∀ other ∈ state.calls.erase call, other.await ≠ .release :=
  ⟨fun other member => smooth.claimed other (Multiset.mem_of_mem_erase member),
    fun other member => smooth.unreleased other (Multiset.mem_of_mem_erase member)⟩

private theorem goOn (smooth : state.Smooth) {await : ChargeAwait}
    (mine : state.seen call.messageId ≠ none) (busy : await ≠ .release)
    {published : List PublishedCharge}
    (charges : Multiset.ofList state.charges =
      (Multiset.ofList published).map (fun charge => charge.event.policyId) +
        (({ call with await } : Charge).unsent + (state.calls.erase call).bind Charge.unsent)) :
    (Billing.goOn { state with published } call await).Smooth where
  claimed := forall_cons_erase (fun _ => mine) smooth.claimed
  unreleased := forall_cons_erase busy smooth.unreleased
  charges := by
    simp only [Billing.goOn, Multiset.cons_bind]
    exact charges

private theorem claim (smooth : state.Smooth) (member : call ∈ state.calls)
    (waiting : call.await = .claim) : (state.perform (.claim call)).Smooth := by
  have charges := smooth.charges
  rw [bind_erase Charge.unsent member] at charges
  have none_ : call.unsent = 0 := by simp [Charge.unsent, waiting]
  rw [none_, zero_add] at charges
  cases held : state.seen call.messageId with
  | some seen =>
      simp only [Billing.perform, held]
      exact ⟨smooth.left.1, smooth.left.2, charges⟩
  | none =>
      simp only [Billing.perform, held]
      refine ⟨?_, ?_, ?_⟩
      · intro other present later
        rcases Multiset.mem_cons.mp present with same | another
        · rw [same]
          simp [Billing.goOn, Billing.charge, Billing.mark]
        · exact seen_mark _ _ (smooth.left.1 other another later)
      · exact forall_cons_erase (by simp) smooth.unreleased
      · simp only [Billing.goOn, Billing.charge, Billing.mark, Multiset.cons_bind,
          ← Multiset.coe_add, charges, Charge.unsent, if_true, Multiset.coe_singleton]
        abel

private theorem step (smooth : state.Smooth) (action : BillingAction)
    (smoothly : Smoothly state action)
    (enabled : state.Enabled action) : (state.perform action).Smooth := by
  cases action with
  | deliver messageId policy =>
      refine ⟨?_, ?_, ?_⟩
      · intro other present later
        rcases Multiset.mem_cons.mp present with new | old
        · exact absurd (congrArg Charge.await new) later
        · exact smooth.claimed other old later
      · exact Multiset.forall_mem_cons.mpr ⟨by simp, smooth.unreleased⟩
      · simpa [Billing.perform, Charge.unsent] using smooth.charges
  | claim call => exact smooth.claim enabled.1 enabled.2
  | publish call =>
      have mine := smooth.claimed call enabled.1 (by simp [enabled.2])
      apply smooth.goOn mine (by simp)
      rw [smooth.charges, bind_erase Charge.unsent enabled.1]
      have unsent : call.unsent = {call.policy.policyId} := if_pos enabled.2
      have silent : ({ call with await := .publish true } : Charge).unsent = 0 := rfl
      have announced : (Multiset.ofList [premiumCharged call.policy]).map
          (fun charge => charge.event.policyId) = {call.policy.policyId} := rfl
      rw [← Multiset.coe_add, Multiset.map_add, announced, unsent, silent]
      abel
  | sent call =>
      have mine := smooth.claimed call enabled.1 (by simp [enabled.2])
      apply smooth.goOn mine (by simp)
      rw [smooth.charges, bind_erase Charge.unsent enabled.1]
      simp [Charge.unsent, enabled.2]
  | raise call => exact smoothly.elim
  | confirm call =>
      have charges := smooth.charges
      have silent : call.unsent = 0 := by simp [Charge.unsent, enabled.2]
      rw [bind_erase Charge.unsent enabled.1, silent, zero_add] at charges
      refine ⟨?_, smooth.left.2, charges⟩
      intro other present later
      exact seen_mark _ _ (smooth.left.1 other present later)
  | release call => exact absurd enabled.2 (smooth.unreleased call enabled.1)
  | die call => exact smoothly.elim

theorem of_reached (reached : billing.Reached Smoothly state) : state.Smooth :=
  reached.invariant Smooth (fun _ first => by cases first; exact .initial)
    fun _ action smooth smoothly enabled => smooth.step action smoothly enabled

end Billing.Smooth

namespace Application

variable {state : Application}

/-- No message id is on its way to billing twice, or known there already. -/
structure Identified (state : Application) : Prop where
  distinct : state.unclaimed.Nodup
  unseen : ∀ messageId ∈ state.unclaimed, state.billing.seen messageId = none

private theorem Identified.of_same (identified : Identified state) {later : Application}
    (unclaimed : later.unclaimed = state.unclaimed)
    (seen : later.billing.seen = state.billing.seen) : Identified later where
  distinct := by
    rw [unclaimed]
    exact identified.distinct
  unseen := by
    rw [unclaimed, seen]
    exact identified.unseen

private theorem Identified.of_mark (identified : Identified state) {later : Application}
    {messageId : String} {mark : Option Seen}
    (seen : later.billing.seen = Function.update state.billing.seen messageId mark)
    (fewer : later.unclaimed ≤ state.unclaimed) (gone : messageId ∉ later.unclaimed) :
    Identified later where
  distinct := Multiset.nodup_of_le fewer identified.distinct
  unseen other member := by
    have different : other ≠ messageId := fun same => gone (same ▸ member)
    rw [seen, Function.update_of_ne different]
    exact identified.unseen other (Multiset.mem_of_le fewer member)

private theorem unclaimed_erase {call : Charge} (member : call ∈ state.billing.calls) :
    state.unclaimed = state.carrying Message.ids + state.writes.bind Write.ids +
      (call.unclaimed + (state.billing.calls.erase call).bind Charge.unclaimed) := by
  rw [unclaimed, bind_erase Charge.unclaimed member]

private theorem Identified.bill (identified : Identified state) (smooth : state.billing.Smooth)
    (action : BillingAction) (smoothly : Smoothly state.billing action)
    (enabled : state.billing.Enabled action) (internal : action.delivers = false) :
    Identified (state.perform (.bill action)) := by
  -- A call past its claim has no id to give up, whatever it does next.
  have goneOn : ∀ call ∈ state.billing.calls, call.await ≠ .claim → ∀ await, await ≠ .claim →
      state.billing.calls.bind Charge.unclaimed =
        ({ call with await } ::ₘ state.billing.calls.erase call).bind Charge.unclaimed := by
    intro call member past await later
    rw [bind_erase Charge.unclaimed member, Multiset.cons_bind, Charge.unclaimed, if_neg past,
      Charge.unclaimed, if_neg later]
  cases action with
  | deliver messageId policy => cases internal
  | claim call =>
      have split := unclaimed_erase enabled.1
      have mine : call.unclaimed = {call.messageId} := if_pos enabled.2
      rw [mine, add_left_comm, Multiset.singleton_add] at split
      have distinct := identified.distinct
      rw [split] at distinct
      have free : state.billing.seen call.messageId = none := by
        apply identified.unseen
        rw [split]
        exact Multiset.mem_cons_self _ _
      have later : (state.perform (.bill (.claim call))).unclaimed =
          state.carrying Message.ids + state.writes.bind Write.ids +
            (state.billing.calls.erase call).bind Charge.unclaimed := by
        simp only [perform, Billing.perform, free, unclaimed, carrying, Billing.goOn,
          Billing.charge, Billing.mark, Multiset.cons_bind, Charge.unclaimed, reduceCtorEq,
          if_false, zero_add]
      apply identified.of_mark
      · simp only [perform, Billing.perform, free, Billing.goOn, Billing.charge, Billing.mark]
        rfl
      · rw [later, split]
        exact Multiset.le_cons_self _ _
      · rw [later]
        exact (Multiset.nodup_cons.mp distinct).1
  | publish call =>
      refine identified.of_same ?_ rfl
      rw [unclaimed, unclaimed,
        goneOn call enabled.1 (by simp [enabled.2]) (.publish true) (by simp)]
      rfl
  | sent call =>
      refine identified.of_same ?_ rfl
      rw [unclaimed, unclaimed, goneOn call enabled.1 (by simp [enabled.2]) .confirmation (by simp)]
      rfl
  | raise call => exact smoothly.elim
  | confirm call =>
      have split := unclaimed_erase enabled.1
      have past : call.unclaimed = 0 := if_neg (by simp [enabled.2])
      rw [past, zero_add] at split
      have known := smooth.claimed call enabled.1 (by simp [enabled.2])
      have later : (state.perform (.bill (.confirm call))).unclaimed = state.unclaimed :=
        split.symm
      apply identified.of_mark
      · simp only [perform, Billing.perform, Billing.leave, Billing.mark]
        rfl
      · exact later.le
      · rw [later]
        exact fun unclaimed => known (identified.unseen _ unclaimed)
  | release call => exact absurd enabled.2 (smooth.unreleased call enabled.1)
  | die call => exact smoothly.elim

private theorem unclaimed_accepted {event : ApplicationAccepted} {policyId messageId : String}
    (faultless : Faultless state (.deliver (.accepted event) policyId messageId))
    (enabled : state.Enabled (.deliver (.accepted event) policyId messageId)) :
    (state.perform (.deliver (.accepted event) policyId messageId)).unclaimed =
      messageId ::ₘ state.unclaimed := by
  rw [unclaimed, carrying_still Message.ids faultless enabled rfl rfl, unclaimed,
    ← Multiset.singleton_add]
  simp only [perform, handle, Multiset.cons_bind, Write.ids]
  abel

private theorem unclaimed_kept (staffed : Staffed state) {step : Step}
    (faultless : Faultless state step) (enabled : state.Enabled step)
    (outside : ∀ action, step ≠ .bill action)
    (undrawn : ∀ event policyId messageId,
      step ≠ .deliver (.accepted event) policyId messageId) :
    (state.perform step).unclaimed = state.unclaimed := by
  have moved := carrying_step Message.ids step faultless enabled
  cases step with
  | bill action => exact absurd rfl (outside action)
  | submit row =>
      rw [unclaimed, unclaimed, carrying_still Message.ids faultless enabled rfl rfl]
      simp [perform, Write.ids]
  | commit write =>
      simp only [Step.consumed, Step.produced, add_zero] at moved
      have split := bind_erase Write.ids enabled.1
      have same : (state.perform (.commit write)).billing = state.billing := by
        cases write <;> rfl
      have carried : write.record.ids = write.ids := by cases write <;> rfl
      have writes : (state.perform (.commit write)).writes = state.writes.erase write := rfl
      rw [unclaimed, unclaimed, moved, same, split, carried, writes]
      abel
  | rollback write =>
      have split := bind_erase Write.ids enabled
      cases write with
      | submit row =>
          rw [Write.ids, zero_add] at split
          rw [unclaimed, unclaimed, carrying_still Message.ids faultless enabled rfl rfl, split]
          rfl
      | issue event policyId messageId => exact faultless.elim
  | deliver message policyId messageId =>
      cases message with
      | accepted event => exact absurd rfl (undrawn event policyId messageId)
      | issued envelopeId event =>
          simp only [Step.consumed, Step.produced, Message.ids, add_zero] at moved
          rw [unclaimed, unclaimed, ← moved]
          simp only [perform, handle, Billing.perform, Multiset.cons_bind, Charge.unclaimed,
            if_true]
          abel
      | _ =>
          rw [unclaimed, unclaimed, carrying_still Message.ids faultless enabled rfl rfl]
          rfl
  | publish stage =>
      have mine := ids_underwritten (staffed stage enabled.1)
      rw [unclaimed, unclaimed, carrying_still Message.ids faultless enabled mine
        (next_unissued ids_unissued stage.message)]
      rfl
  | return_ stage =>
      rw [unclaimed, unclaimed, carrying_still Message.ids faultless enabled rfl rfl,
        perform_return]
  | _ =>
      rw [unclaimed, unclaimed, carrying_still Message.ids faultless enabled rfl rfl]
      rfl

theorem seen_kept {step : Step} (outside : ∀ action, step ≠ .bill action) :
    (state.perform step).billing.seen = state.billing.seen := by
  cases step with
  | bill action => exact absurd rfl (outside action)
  | commit write => cases write <;> rfl
  | deliver message policyId messageId => cases message <;> rfl
  | return_ stage => rw [perform_return]
  | _ => rfl

theorem Identified.step (identified : Identified state) (smooth : state.billing.Smooth)
    (staffed : Staffed state) (step : Step) (faultless : Faultless state step)
    (enabled : state.Enabled step) : Identified (state.perform step) := by
  cases step with
  | bill action =>
      exact identified.bill smooth action faultless.smoothly enabled.1 enabled.2
  | deliver message policyId messageId =>
      cases message with
      | accepted event =>
          have fresh : state.Fresh messageId := faultless
          have later := unclaimed_accepted faultless enabled
          constructor
          · rw [later]
            exact Multiset.nodup_cons.mpr ⟨fresh.1, identified.distinct⟩
          · intro other member
            rw [later] at member
            rcases Multiset.mem_cons.mp member with new | old
            · rw [new]
              exact fresh.2
            · exact identified.unseen other old
      | _ =>
          exact identified.of_same (unclaimed_kept staffed faultless enabled (by simp) (by simp))
            (seen_kept (by simp))
  | _ =>
      exact identified.of_same (unclaimed_kept staffed faultless enabled (by simp) (by simp))
        (seen_kept (by simp))

def Charging (state : Application) : Prop :=
  (Multiset.ofList state.policies).map PolicyRow.charged =
    Multiset.ofList state.billing.published + state.billing.calls.bind Charge.due +
      state.carrying Message.premiums

private theorem Charging.bill (charging : Charging state) (identified : Identified state)
    (smooth : state.billing.Smooth) (action : BillingAction)
    (smoothly : Smoothly state.billing action) (enabled : state.billing.Enabled action)
    (internal : action.delivers = false) : Charging (state.perform (.bill action)) := by
  rw [Charging] at charging ⊢
  change _ = _ + _ + state.carrying Message.premiums
  refine charging.trans (congrArg (· + state.carrying Message.premiums) ?_)
  cases action with
  | deliver messageId policy => cases internal
  | claim call =>
      have waiting : call.messageId ∈ state.unclaimed := by
        rw [unclaimed_erase enabled.1, Charge.unclaimed, if_pos enabled.2]
        simp
      have due : call.due = {premiumCharged call.policy} := if_pos (.inl enabled.2)
      rw [bind_erase Charge.due enabled.1, due]
      simp [perform, Billing.perform, identified.unseen _ waiting, Billing.goOn, Billing.charge,
        Billing.mark, Charge.due]
  | publish call =>
      have due : call.due = {premiumCharged call.policy} := if_pos (.inr enabled.2)
      rw [bind_erase Charge.due enabled.1, due]
      simp only [perform, Billing.perform, Billing.goOn, Multiset.cons_bind, Charge.due,
        reduceCtorEq, ChargeAwait.publish.injEq, Bool.true_eq_false, or_self, if_false, zero_add,
        ← Multiset.coe_add, Multiset.coe_singleton]
      abel
  | sent call =>
      have due : call.due = 0 := if_neg (by simp [enabled.2])
      rw [bind_erase Charge.due enabled.1, due]
      simp [perform, Billing.perform, Billing.goOn, Charge.due]
  | raise call => exact smoothly.elim
  | confirm call =>
      have due : call.due = 0 := if_neg (by simp [enabled.2])
      rw [bind_erase Charge.due enabled.1, due, zero_add]
      rfl
  | release call => exact absurd enabled.2 (smooth.unreleased call enabled.1)
  | die call => exact smoothly.elim

theorem Charging.step (charging : Charging state) (identified : Identified state)
    (smooth : state.billing.Smooth) (staffed : Staffed state) (step : Step)
    (faultless : Faultless state step) (enabled : state.Enabled step) :
    Charging (state.perform step) := by
  have moved := carrying_step Message.premiums step faultless enabled
  cases step with
  | bill action =>
      exact charging.bill identified smooth action faultless.smoothly enabled.1 enabled.2
  | commit write =>
      simp only [Step.consumed, Step.produced, add_zero] at moved
      rw [Charging] at charging ⊢
      rw [moved, ← add_assoc]
      cases write with
      | submit row =>
          simp only [perform, insert, charging]
          exact (add_zero _).symm
      | issue event policyId messageId =>
          simp only [perform, insert, ← Multiset.coe_add, Multiset.map_add, charging]
          rfl
  | deliver message policyId messageId =>
      rw [Charging] at charging ⊢
      cases message with
      | issued envelopeId event =>
          simp only [Step.consumed, Step.produced, Message.premiums, add_zero] at moved
          have due : (⟨envelopeId, event, .claim⟩ : Charge).due = {premiumCharged event} := rfl
          simp only [perform, handle, Billing.perform, Multiset.cons_bind, due] at moved ⊢
          rw [charging, ← moved]
          abel
      | _ =>
          rw [carrying_still Message.premiums faultless enabled rfl rfl]
          exact charging
  | publish stage =>
      have mine := premiums_underwritten (staffed stage enabled.1)
      rw [Charging, carrying_still Message.premiums faultless enabled mine
        (next_unissued premiums_unissued stage.message)]
      exact charging
  | return_ stage =>
      rw [Charging, carrying_still Message.premiums faultless enabled rfl rfl, perform_return]
      exact charging
  | _ =>
      rw [Charging, carrying_still Message.premiums faultless enabled rfl rfl]
      exact charging

end Application

end AmqpApps.PolicyAdministration
