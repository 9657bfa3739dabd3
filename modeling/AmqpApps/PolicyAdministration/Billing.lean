import AmqpApps.Foundation.KeyedBags
import AmqpApps.Foundation.TransitionSystem
import AmqpApps.PolicyAdministration.Contracts
import Mathlib.Data.List.Nodup
import Mathlib.Data.Multiset.Basic
import Mathlib.Logic.Function.Basic

/-! # Billing: the first premium

`_charge` runs inside `idempotent(store, handler)`, which claims the message id
before the handler, confirms it once the handler has accepted and releases it
when the handler raises. The charge is on record from before the publish that
announces it.
-/

namespace AmqpApps.PolicyAdministration

inductive Seen
  | claimed
  | confirmed
deriving DecidableEq

inductive ChargeAwait
  | claim
  /-- The publish, which the broker may have taken. -/
  | publish (out : Bool)
  | confirmation
  | release
deriving DecidableEq

structure Charge where
  messageId : String
  policy : PolicyIssued
  await : ChargeAwait
deriving DecidableEq

structure PublishedCharge where
  event : PremiumCharged
  correlation : String
deriving DecidableEq

/-- What an onlooker writes down; nothing reads it. -/
structure BillingHistory where
  /-- The deliveries a charge was taken for, with the message id. -/
  taken : List (String × PolicyIssued)
  /-- The message ids whose handler has raised. -/
  raised : List String

structure Billing where
  seen : String → Option Seen
  charges : List String
  calls : Multiset Charge
  published : List PublishedCharge
  history : BillingHistory

def premiumCharged (policy : PolicyIssued) : PublishedCharge :=
  ⟨⟨policy.policyId, policy.applicant, policy.annualPremium⟩, policy.applicationId⟩

inductive BillingAction
  | deliver (messageId : String) (policy : PolicyIssued)
  /-- The store answers the claim. -/
  | claim (call : Charge)
  | publish (call : Charge)
  | sent (call : Charge)
  /-- The publish raises, and the handler with it. -/
  | raise (call : Charge)
  | confirm (call : Charge)
  | release (call : Charge)
  /-- The call dies where it is. -/
  | die (call : Charge)
deriving DecidableEq

def BillingAction.delivers : BillingAction → Bool
  | .deliver .. => true
  | _ => false

namespace Billing

def initial : Billing := ⟨fun _ => none, [], 0, [], ⟨[], []⟩⟩

def Enabled (state : Billing) : BillingAction → Prop
  | .deliver .. => True
  | .claim call => call ∈ state.calls ∧ call.await = .claim
  | .publish call => call ∈ state.calls ∧ call.await = .publish false
  | .sent call => call ∈ state.calls ∧ call.await = .publish true
  | .raise call => call ∈ state.calls ∧ (call.await = .publish false ∨ call.await = .publish true)
  | .confirm call => call ∈ state.calls ∧ call.await = .confirmation
  | .release call => call ∈ state.calls ∧ call.await = .release
  | .die call => call ∈ state.calls

instance (state : Billing) (action : BillingAction) : Decidable (state.Enabled action) := by
  rcases action with ⟨⟩ <;> unfold Enabled <;> infer_instance

def goOn (state : Billing) (call : Charge) (await : ChargeAwait) : Billing :=
  { state with calls := { call with await } ::ₘ state.calls.erase call }

def leave (state : Billing) (call : Charge) : Billing :=
  { state with calls := state.calls.erase call }

def mark (state : Billing) (messageId : String) (seen : Option Seen) : Billing :=
  { state with seen := Function.update state.seen messageId seen }

def charge (state : Billing) (call : Charge) : Billing :=
  { state with
    charges := state.charges ++ [call.policy.policyId]
    history := { state.history with
      taken := state.history.taken ++ [(call.messageId, call.policy)] } }

def perform (state : Billing) : BillingAction → Billing
  | .deliver messageId policy =>
      { state with calls := ⟨messageId, policy, .claim⟩ ::ₘ state.calls }
  | .claim call =>
      match state.seen call.messageId with
      | none => ((state.mark call.messageId (some .claimed)).charge call).goOn call (.publish false)
      -- In progress elsewhere, it is put back; confirmed, it is accepted.
      | some _ => state.leave call
  | .publish call =>
      goOn { state with published := state.published ++ [premiumCharged call.policy] } call
        (.publish true)
  | .sent call => state.goOn call .confirmation
  | .raise call =>
      goOn { state with
        history := { state.history with
          raised := state.history.raised ++ [call.messageId] } } call .release
  | .confirm call => (state.mark call.messageId (some .confirmed)).leave call
  | .release call => (state.mark call.messageId none).leave call
  | .die call => state.leave call

end Billing

def billing : TransitionSystem Billing BillingAction where
  Initial state := state = Billing.initial
  Enabled := Billing.Enabled
  perform := Billing.perform

instance (state : Billing) (action : BillingAction) :
    Decidable (billing.Enabled state action) :=
  inferInstanceAs (Decidable (state.Enabled action))

/-! ## Where a charge comes from -/

/-- Every delivery in hand, and every charge, is of a message of some kind. -/
def Billing.Sourced (source : String → PolicyIssued → Prop) (state : Billing) : Prop :=
  (∀ call ∈ state.calls, source call.messageId call.policy) ∧
    ∀ taken ∈ state.history.taken, source taken.1 taken.2

theorem Billing.Sourced.step {source : String → PolicyIssued → Prop} {state : Billing}
    (sourced : state.Sourced source) (action : BillingAction) (enabled : state.Enabled action)
    (delivered : ∀ messageId policy, action = .deliver messageId policy →
      source messageId policy) : (state.perform action).Sourced source := by
  have left : ∀ call, ∀ other ∈ state.calls.erase call, source other.messageId other.policy :=
    fun call other member => sourced.1 other (Multiset.mem_of_mem_erase member)
  have goneOn : ∀ call ∈ state.calls, ∀ await,
      ∀ other ∈ { call with await } ::ₘ state.calls.erase call,
        source other.messageId other.policy := by
    intro call present await
    exact forall_cons_erase (sourced.1 call present) sourced.1
  cases action with
  | deliver messageId policy =>
      have new := delivered messageId policy rfl
      exact ⟨Multiset.forall_mem_cons.mpr ⟨new, sourced.1⟩, sourced.2⟩
  | claim call =>
      cases held : state.seen call.messageId with
      | some seen =>
          simp only [perform, held]
          exact ⟨left call, sourced.2⟩
      | none =>
          simp only [perform, held]
          refine ⟨goneOn call enabled.1 _, ?_⟩
          intro taken member
          rcases List.mem_append.mp member with old | new
          · exact sourced.2 taken old
          · rw [List.mem_singleton.mp new]
            exact sourced.1 call enabled.1
  | publish call => exact ⟨goneOn call enabled.1 _, sourced.2⟩
  | sent call => exact ⟨goneOn call enabled.1 _, sourced.2⟩
  | raise call => exact ⟨goneOn call enabled.1 _, sourced.2⟩
  | confirm call => exact ⟨left call, sourced.2⟩
  | release call => exact ⟨left call, sourced.2⟩
  | die call => exact ⟨left call, sourced.2⟩

/-! ## How often a premium is taken -/

/-- A message id is not claimed again once a handler has raised on it. -/
def NeverAfterRaise (state : Billing) : BillingAction → Prop
  | .claim call => state.seen call.messageId = none → call.messageId ∉ state.history.raised
  | _ => True

instance (state : Billing) (action : BillingAction) :
    Decidable (NeverAfterRaise state action) := by
  rcases action with ⟨⟩ <;> unfold NeverAfterRaise <;> infer_instance

structure ChargedOnce (state : Billing) : Prop where
  recorded : state.charges = state.history.taken.map fun taken => taken.2.policyId
  once : (state.history.taken.map Prod.fst).Nodup
  kept : ∀ messageId ∈ state.history.taken.map Prod.fst,
    state.seen messageId ≠ none ∨ messageId ∈ state.history.raised
  releasing : ∀ call ∈ state.calls, call.await = .release →
    call.messageId ∈ state.history.raised

private theorem ChargedOnce.initial : ChargedOnce Billing.initial where
  recorded := rfl
  once := List.nodup_nil
  kept := by simp [Billing.initial]
  releasing := by simp [Billing.initial]

namespace ChargedOnce

variable {state : Billing} {call : Charge}

private theorem releasing_goOn (charged : ChargedOnce state) {await : ChargeAwait}
    (busy : await ≠ .release) :
    ∀ other ∈ { call with await } ::ₘ state.calls.erase call, other.await = .release →
      other.messageId ∈ state.history.raised :=
  forall_cons_erase (fun releasing => absurd releasing busy) charged.releasing

private theorem releasing_leave (charged : ChargedOnce state) :
    ∀ other ∈ state.calls.erase call, other.await = .release →
      other.messageId ∈ state.history.raised :=
  fun other member => charged.releasing other (Multiset.mem_of_mem_erase member)

/-- A free message id that never raised has not been charged for. -/
theorem claim (charged : ChargedOnce state)
    (first : state.seen call.messageId = none → call.messageId ∉ state.history.raised) :
    ChargedOnce (state.perform (.claim call)) := by
  cases held : state.seen call.messageId with
  | some seen =>
      simp only [Billing.perform, held]
      exact ⟨charged.recorded, charged.once, charged.kept, charged.releasing_leave⟩
  | none =>
      have fresh : call.messageId ∉ state.history.taken.map Prod.fst := by
        intro taken
        rcases charged.kept _ taken with seen | raised
        · exact seen held
        · exact first held raised
      simp only [Billing.perform, held]
      refine ⟨?_, ?_, ?_, charged.releasing_goOn (by simp)⟩
      · simp [Billing.goOn, Billing.charge, Billing.mark, charged.recorded]
      · simp only [Billing.goOn, Billing.charge, Billing.mark, List.map_append, List.map_cons,
          List.map_nil]
        apply List.nodup_append.mpr
        refine ⟨charged.once, List.nodup_singleton _, ?_⟩
        intro taken member claimed single same
        rw [same, List.mem_singleton.mp single] at member
        exact fresh member
      · intro messageId member
        by_cases same : messageId = call.messageId
        · subst same
          exact .inl (by simp [Billing.goOn, Billing.charge, Billing.mark])
        · have before : messageId ∈ state.history.taken.map Prod.fst := by
            simpa [Billing.goOn, Billing.charge, Billing.mark, same] using member
          simpa [Billing.goOn, Billing.charge, Billing.mark, Function.update_of_ne same] using
            charged.kept messageId before

private theorem kept_mark (charged : ChargedOnce state) {seen : Option Seen}
    (mine : seen ≠ none ∨ call.messageId ∈ state.history.raised) :
    ∀ messageId ∈ state.history.taken.map Prod.fst,
      (state.mark call.messageId seen).seen messageId ≠ none ∨
        messageId ∈ state.history.raised := by
  intro messageId member
  by_cases same : messageId = call.messageId
  · subst same
    simpa [Billing.mark] using mine
  · simpa [Billing.mark, Function.update_of_ne same] using charged.kept messageId member

private theorem step (charged : ChargedOnce state) (action : BillingAction)
    (first : NeverAfterRaise state action) (enabled : state.Enabled action) :
    ChargedOnce (state.perform action) := by
  cases action with
  | deliver messageId policy =>
      refine ⟨charged.recorded, charged.once, charged.kept, ?_⟩
      intro other member releasing
      rcases Multiset.mem_cons.mp member with new | old
      · simp [new] at releasing
      · exact charged.releasing other old releasing
  | claim call => exact charged.claim first
  | publish call =>
      exact ⟨charged.recorded, charged.once, charged.kept, charged.releasing_goOn (by simp)⟩
  | sent call =>
      exact ⟨charged.recorded, charged.once, charged.kept, charged.releasing_goOn (by simp)⟩
  | raise call =>
      refine ⟨charged.recorded, charged.once, ?_, ?_⟩
      · intro messageId member
        exact (charged.kept messageId member).imp_right (List.mem_append_left _)
      · intro other member releasing
        rcases Multiset.mem_cons.mp member with same | another
        · subst same
          exact List.mem_append_right _ (List.mem_singleton_self _)
        · exact List.mem_append_left _
            (charged.releasing other (Multiset.mem_of_mem_erase another) releasing)
  | confirm call =>
      exact ⟨charged.recorded, charged.once, charged.kept_mark (.inl (by simp)),
        charged.releasing_leave⟩
  | release call =>
      have raised := charged.releasing call enabled.1 enabled.2
      exact ⟨charged.recorded, charged.once, charged.kept_mark (.inr raised),
        charged.releasing_leave⟩
  | die call =>
      exact ⟨charged.recorded, charged.once, charged.kept, charged.releasing_leave⟩

end ChargedOnce

def NeverRaises (_ : Billing) : BillingAction → Prop
  | .raise _ => False
  | _ => True

instance (state : Billing) (action : BillingAction) : Decidable (NeverRaises state action) := by
  rcases action with ⟨⟩ <;> unfold NeverRaises <;> infer_instance

theorem ChargedOnce.of_never_raised {state : Billing}
    (reached : billing.Reached NeverRaises state) : ChargedOnce state := by
  have charged : ChargedOnce state ∧ state.history.raised = [] := by
    apply reached.invariant (fun state => ChargedOnce state ∧ state.history.raised = [])
    · intro state first
      cases first
      exact ⟨.initial, rfl⟩
    · intro state action charged quiet enabled
      have first : NeverAfterRaise state action := by
        cases action with
        | claim call => exact fun _ => by simp [charged.2]
        | _ => trivial
      refine ⟨charged.1.step action first enabled, ?_⟩
      cases action with
      | claim call =>
          cases held : state.seen call.messageId <;>
            simp only [billing, Billing.perform, held] <;> exact charged.2
      | raise call => exact quiet.elim
      | _ => exact charged.2
  exact charged.1

/-- As long as no message id is claimed again after a publish for it raised,
every entry of `charges` is of another message. -/
theorem charged_once {state : Billing} (reached : billing.Reached NeverAfterRaise state) :
    state.charges = state.history.taken.map (fun taken => taken.2.policyId) ∧
      (state.history.taken.map Prod.fst).Nodup := by
  have charged : ChargedOnce state :=
    reached.invariant ChargedOnce (fun _ first => by cases first; exact .initial)
      fun _ action charged first enabled => charged.step action first enabled
  exact ⟨charged.recorded, charged.once⟩

def issued : PolicyIssued := ⟨"POL-1", "APP-1", "A. Applicant", "TERM-LIFE", 120⟩

/-- Three copies of one message, two of them while the first is handled. -/
theorem three_copies_charged_once : ∃ state : Billing,
    state.calls = 0 ∧ state.seen "redelivery" = some .confirmed ∧ state.charges = ["POL-1"] ∧
      (state.history.taken.map Prod.fst).Nodup := by
  have reached : billing.Reached NeverAfterRaise _ :=
    .of_run [.deliver "redelivery" issued, .deliver "redelivery" issued,
      .claim ⟨"redelivery", issued, .claim⟩, .claim ⟨"redelivery", issued, .claim⟩,
      .publish ⟨"redelivery", issued, .publish false⟩, .sent ⟨"redelivery", issued, .publish true⟩,
      .confirm ⟨"redelivery", issued, .confirmation⟩, .deliver "redelivery" issued,
      .claim ⟨"redelivery", issued, .claim⟩] (.start rfl) rfl
  exact ⟨_, by decide, by decide, by decide, (charged_once reached).2⟩

/-- The publish raises after the charge is on record, and the retry charges again. -/
theorem charged_again_after_failed_publish : ¬ ∀ state : Billing,
    billing.Reached TransitionSystem.anyStep state →
      (state.history.taken.map Prod.fst).Nodup := by
  intro once
  have reached : billing.Reached TransitionSystem.anyStep _ :=
    .of_run [.deliver "message-1" issued, .claim ⟨"message-1", issued, .claim⟩,
      .raise ⟨"message-1", issued, .publish false⟩, .release ⟨"message-1", issued, .release⟩,
      .deliver "message-1" issued, .claim ⟨"message-1", issued, .claim⟩] (.start rfl) rfl
  have twice := once _ reached
  revert twice
  decide

end AmqpApps.PolicyAdministration
