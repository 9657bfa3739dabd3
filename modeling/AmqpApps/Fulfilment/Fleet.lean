import AmqpApps.Foundation.KeyedBags
import AmqpApps.Fulfilment.OrderLoss
import Mathlib.Data.List.Nodup

/-! # The fleet of payments, watched

When a handler won its claim is not in the state of the fleet, and once it is done
nothing says whose publish it was. An onlooker notes both.
-/

namespace AmqpApps.Fulfilment

/-! ## The onlooker -/

structure Holder where
  handler : Handler
  since : Nat
deriving DecidableEq

def Holder.orderId (holder : Holder) : String := holder.handler.orderId

def Await.isOut : Await → Bool
  | publish out => out
  | confirmation => true
  | _ => false

/-- Holds the order on a claim that has not lapsed. -/
def Holder.standing (terms : Lease.Terms Nat) (clock : Nat) (orderId : String)
    (holder : Holder) : Bool :=
  holder.orderId == orderId && decide (clock < holder.since + terms.claimTimeout)

/-- The fleet with its holders, and the deliveries whose handlers published. -/
structure Fleet where
  payments : Payments
  holders : Multiset Holder
  winners : List Delivery

structure FleetAction where
  action : PaymentsAction
  since : Nat
deriving DecidableEq

namespace Fleet

def initial : Fleet := ⟨.initial, 0, []⟩

def Known (fleet : Fleet) (since : Nat) : PaymentsAction → Prop
  | .publish handler | .sent handler | .confirm handler => ⟨handler, since⟩ ∈ fleet.holders
  | .raise handler => handler.AtWork → ⟨handler, since⟩ ∈ fleet.holders
  | _ => True

instance (fleet : Fleet) (since : Nat) (action : PaymentsAction) :
    Decidable (fleet.Known since action) := by
  rcases action with ⟨⟩ <;> unfold Known <;> infer_instance

def goOn (fleet : Fleet) (holder : Holder) (await : Await) : Multiset Holder :=
  ⟨{ holder.handler with await }, holder.since⟩ ::ₘ fleet.holders.erase holder

def holdersAfter (terms : Lease.Terms Nat) (fleet : Fleet) (since : Nat) :
    PaymentsAction → Multiset Holder
  | .claim handler =>
      let payments := fleet.payments
      if (Lease.firstTime terms payments.store payments.clock handler.orderId).1 then
        ⟨{ handler with await := .publish false }, payments.clock⟩ ::ₘ fleet.holders
      else fleet.holders
  | .publish handler => fleet.goOn ⟨handler, since⟩ (.publish true)
  | .sent handler => fleet.goOn ⟨handler, since⟩ .confirmation
  | .confirm handler | .raise handler => fleet.holders.erase ⟨handler, since⟩
  | .crash service => fleet.holders.filter (·.handler.service ≠ service)
  | _ => fleet.holders

def winnersAfter (fleet : Fleet) : PaymentsAction → List Delivery
  | .publish handler => fleet.winners ++ [handler.delivery]
  | _ => fleet.winners

def perform (terms : Lease.Terms Nat) (fleet : Fleet) (step : FleetAction) : Fleet where
  payments := fleet.payments.perform terms step.action
  holders := fleet.holdersAfter terms step.since step.action
  winners := fleet.winnersAfter step.action

end Fleet

def fleet (terms : Lease.Terms Nat) : TransitionSystem Fleet FleetAction where
  Initial state := state = Fleet.initial
  Enabled state step :=
    state.payments.Enabled step.action ∧ state.Known step.since step.action
  perform := Fleet.perform terms

instance (terms : Lease.Terms Nat) (state : Fleet) (step : FleetAction) :
    Decidable ((fleet terms).Enabled state step) :=
  inferInstanceAs (Decidable (_ ∧ _))

def Fleet.Tracks (state : Fleet) : Prop :=
  state.holders.map Holder.handler = state.payments.handlers.filter Handler.AtWork

namespace Fleet.Tracks

variable {state : Fleet} {handler : Handler}

private theorem known (tracks : state.Tracks) (member : handler ∈ state.payments.handlers)
    (atWork : handler.AtWork) : ∃ since, ⟨handler, since⟩ ∈ state.holders := by
  have watched : handler ∈ state.holders.map Holder.handler := by
    rw [tracks]
    exact Multiset.mem_filter.mpr ⟨member, atWork⟩
  rcases Multiset.mem_map.mp watched with ⟨⟨same, since⟩, held, equal⟩
  cases equal
  exact ⟨since, held⟩

private theorem enabled (tracks : state.Tracks) {action : PaymentsAction}
    (enabled : state.payments.Enabled action) : ∃ since, state.Known since action := by
  cases action with
  | publish handler => exact tracks.known enabled.1 (by simp [Handler.AtWork, enabled.2])
  | sent handler => exact tracks.known enabled.1 (by simp [Handler.AtWork, enabled.2])
  | confirm handler => exact tracks.known enabled.1 (by simp [Handler.AtWork, enabled.2])
  | raise handler =>
      by_cases atWork : handler.AtWork
      · rcases tracks.known enabled.1 atWork with ⟨since, held⟩
        exact ⟨since, fun _ => held⟩
      · exact ⟨0, fun working => absurd working atWork⟩
  | _ => exact ⟨0, trivial⟩

private theorem erase (tracks : state.Tracks) {since : Nat}
    (held : ⟨handler, since⟩ ∈ state.holders)
    (atWork : handler.AtWork) :
    (state.holders.erase ⟨handler, since⟩).map Holder.handler =
      (state.payments.handlers.erase handler).filter Handler.AtWork := by
  have split := congrArg (Multiset.map Holder.handler) (Multiset.cons_erase held)
  rw [Multiset.map_cons, tracks] at split
  have member : handler ∈ state.payments.handlers := by
    have present : handler ∈ state.payments.handlers.filter Handler.AtWork := by
      rw [← split]
      exact Multiset.mem_cons_self _ _
    exact (Multiset.mem_filter.mp present).1
  rw [← Multiset.cons_erase member, Multiset.filter_cons_of_pos _ atWork] at split
  exact (Multiset.cons_inj_right _).mp split

private theorem goOn (tracks : state.Tracks) {since : Nat} (held : ⟨handler, since⟩ ∈ state.holders)
    (atWork : handler.AtWork) {await : Await}
    (working : ({ handler with await } : Handler).AtWork) :
    (state.goOn ⟨handler, since⟩ await).map Holder.handler =
      (state.payments.goOn handler await).handlers.filter Handler.AtWork := by
  simp only [Fleet.goOn, Payments.goOn, Multiset.map_cons,
    Multiset.filter_cons_of_pos _ working, tracks.erase held atWork]

private theorem erase_idle (idle : ¬handler.AtWork) (member : handler ∈ state.payments.handlers) :
    (state.payments.handlers.erase handler).filter Handler.AtWork =
      state.payments.handlers.filter Handler.AtWork := by
  rw [← Multiset.cons_erase member, Multiset.filter_cons_of_neg _ idle, Multiset.erase_cons_head]

private theorem step (tracks : state.Tracks) (terms : Lease.Terms Nat) (step : FleetAction)
    (enabled : (fleet terms).Enabled state step) : (state.perform terms step).Tracks := by
  rcases step with ⟨action, since⟩
  rcases enabled with ⟨enabled, known⟩
  rw [Tracks] at tracks ⊢
  cases action with
  | place order correlation => exact tracks
  | pass duration => exact tracks
  | retry delivery => exact tracks
  | deliver delivery service =>
      have idle : ¬(⟨service, delivery, .claim⟩ : Handler).AtWork := by simp [Handler.AtWork]
      simp only [Fleet.perform, Fleet.holdersAfter, Payments.perform,
        Multiset.filter_cons_of_neg _ idle]
      exact tracks
  | claim handler =>
      have idle : ¬handler.AtWork := by simp [Handler.AtWork, enabled.2]
      have left := erase_idle idle enabled.1
      simp only [Fleet.perform, Fleet.holdersAfter, Payments.perform]
      split
      · have working : ({ handler with await := .publish false } : Handler).AtWork := by
          simp [Handler.AtWork]
        simp only [Payments.goOn, Multiset.map_cons, Multiset.filter_cons_of_pos _ working, left,
          tracks]
      · have resting : ¬({ handler with await := .acknowledgement } : Handler).AtWork := by
          simp [Handler.AtWork]
        simp only [Payments.goOn, Payments.serviceDid, Multiset.filter_cons_of_neg _ resting,
          left, tracks]
  | publish handler =>
      exact Tracks.goOn tracks known (by simp [Handler.AtWork, enabled.2])
        (by simp [Handler.AtWork])
  | sent handler =>
      exact Tracks.goOn tracks known (by simp [Handler.AtWork, enabled.2])
        (by simp [Handler.AtWork])
  | confirm handler =>
      have left := Tracks.erase tracks known (by simp [Handler.AtWork, enabled.2])
      have resting : ¬({ handler with await := .acknowledgement } : Handler).AtWork := by
        simp [Handler.AtWork]
      simp only [Fleet.perform, Fleet.holdersAfter, Payments.perform, Payments.goOn,
        Multiset.filter_cons_of_neg _ resting, left]
  | acknowledge handler =>
      have idle : ¬handler.AtWork := by simp [Handler.AtWork, enabled.2]
      simp only [Fleet.perform, Fleet.holdersAfter, Payments.perform, erase_idle idle enabled.1]
      exact tracks
  | raise handler =>
      have gone : (state.payments.perform terms (.raise handler)).handlers =
          state.payments.handlers.erase handler := by
        rw [Payments.perform]
        split <;> rfl
      simp only [Fleet.perform, Fleet.holdersAfter, gone]
      by_cases atWork : handler.AtWork
      · exact Tracks.erase tracks (known atWork) atWork
      · have unheld : ⟨handler, since⟩ ∉ state.holders := by
          intro held
          have present := Multiset.mem_map_of_mem Holder.handler held
          rw [tracks] at present
          exact atWork (Multiset.mem_filter.mp present).2
        rw [Multiset.erase_of_notMem unheld, erase_idle atWork enabled.1]
        exact tracks
  | crash service =>
      simp only [Fleet.perform, Fleet.holdersAfter, Payments.perform]
      rw [Multiset.filter_comm, ← tracks, Multiset.filter_map]
      rfl

end Fleet.Tracks

/-- Every run of the fleet can be watched. -/
theorem watched {terms : Lease.Terms Nat} {payments : Payments}
    (reached : (Fulfilment.payments terms).Reached TransitionSystem.anyStep payments) :
    ∃ state, (fleet terms).Reached TransitionSystem.anyStep state ∧
      state.payments = payments ∧ state.Tracks := by
  induction reached with
  | start initial =>
      cases initial
      exact ⟨.initial, .start rfl, rfl, rfl⟩
  | next action _ _ enabled induction =>
      rcases induction with ⟨state, reached, same, tracks⟩
      rw [← same] at enabled ⊢
      rcases tracks.enabled enabled with ⟨since, known⟩
      have possible : (fleet terms).Enabled state ⟨action, since⟩ := ⟨enabled, known⟩
      exact ⟨_, .next _ reached trivial possible, rfl, tracks.step terms _ possible⟩

end AmqpApps.Fulfilment
