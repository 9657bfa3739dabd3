import AmqpApps.Fulfilment.Fleet

/-! # One outcome for each order

A claim that has lapsed is taken over although its holder may still be alive.
What keeps the fleet to one outcome is time: a holder that has published is done
before its claim lapses, and no duplicate outlives the confirmation.
-/

namespace AmqpApps.Fulfilment

/-- The mark is no confirmation, or one within its retention. -/
def Remembered (within : Nat → Nat → Prop) (terms : Lease.Terms Nat) (now : Nat) :
    Lease.Mark Nat → Prop
  | .claimed _ => True
  | .confirmed since => ∀ retention ∈ terms.retention, within now (since + retention)

instance (within : Nat → Nat → Prop) [DecidableRel within] (terms : Lease.Terms Nat) (now : Nat)
    (mark : Lease.Mark Nat) : Decidable (Remembered within terms now mark) := by
  rcases mark with ⟨⟩ <;> unfold Remembered <;> infer_instance

/-- No duplicate asks for an order whose confirmation is past its retention. A
handler that publishes is done within the term of its claim: its send returns,
and it neither raises nor dies before it has confirmed. -/
def InTime (within : Nat → Nat → Prop) (terms : Lease.Terms Nat) (state : Fleet)
    (step : FleetAction) : Prop :=
  match step.action with
  | .claim handler =>
      ∀ mark ∈ state.payments.store handler.orderId,
        Remembered within terms state.payments.clock mark
  | .publish _ => within state.payments.clock (step.since + terms.claimTimeout)
  | .pass duration =>
      ∀ holder ∈ state.holders, holder.handler.await.isOut = true →
        within (state.payments.clock + duration) (holder.since + terms.claimTimeout)
  | .raise handler => handler.await.isOut = false
  | .crash service =>
      ∀ holder ∈ state.holders, holder.handler.service = service →
        holder.handler.await.isOut = false
  | _ => True

instance (within : Nat → Nat → Prop) [DecidableRel within] (terms : Lease.Terms Nat)
    (state : Fleet) (step : FleetAction) : Decidable (InTime within terms state step) := by
  rcases step with ⟨action, since⟩
  rcases action with ⟨⟩ <;> unfold InTime <;> infer_instance

/-! ## The invariant -/

/-- An order has one holder whose claim stands. Whoever has published is one, or
has confirmed. -/
structure Exclusive (terms : Lease.Terms Nat) (state : Fleet) : Prop where
  one : ∀ orderId, howMany (Holder.standing terms state.payments.clock orderId) state.holders ≤ 1
  held : ∀ holder ∈ state.holders,
    state.payments.clock < holder.since + terms.claimTimeout →
      state.payments.store holder.orderId = some (.claimed holder.since)
  prompt : ∀ holder ∈ state.holders, holder.handler.await.isOut = true →
    state.payments.clock < holder.since + terms.claimTimeout
  settled : ∀ winner ∈ state.winners,
    (∃ holder ∈ state.holders, holder.orderId = winner.orderId ∧
      holder.handler.await.isOut = true) ∨
    ∃ since, state.payments.store winner.orderId = some (.confirmed since)
  once : (state.winners.map Delivery.orderId).Nodup
  published : state.payments.published =
    state.winners.map fun winner => ⟨charge winner.order, winner.correlation⟩

namespace Exclusive

variable {terms : Lease.Terms Nat} {state : Fleet} {handler : Handler} {since : Nat}

private theorem initial : Exclusive terms .initial where
  one := by simp [Fleet.initial]
  held := by simp [Fleet.initial]
  prompt := by simp [Fleet.initial]
  settled := by simp [Fleet.initial]
  once := by simp [Fleet.initial]
  published := by simp [Fleet.initial, Payments.initial]

private theorem alone (exclusive : Exclusive terms state) {holder other : Holder}
    (held : holder ∈ state.holders)
    (stands : state.payments.clock < holder.since + terms.claimTimeout)
    (another : other ∈ state.holders.erase holder) (same : other.orderId = holder.orderId) :
    ¬state.payments.clock < other.since + terms.claimTimeout := by
  intro standsToo
  let kind := Holder.standing terms state.payments.clock holder.orderId
  have mine : kind holder = true := by simp [kind, Holder.standing, stands]
  have theirs : kind other = true := by simp [kind, Holder.standing, standsToo, same]
  have both := howMany_erase kind held
  have rest := howMany_erase kind another
  have atMost : howMany kind state.holders ≤ 1 := exclusive.one holder.orderId
  rw [mine] at both
  rw [theirs] at rest
  simp only [Bool.toNat_true] at both rest
  omega

/-- While a claim stands, or the order's confirmation is remembered, the order is
taken. -/
theorem taken (exclusive : Exclusive terms state) {holder : Holder}
    (held : holder ∈ state.holders)
    (stands : state.payments.clock < holder.since + terms.claimTimeout) :
    Lease.Taken terms state.payments.store state.payments.clock holder.orderId :=
  ⟨.claimed holder.since, exclusive.held holder held stands, stands⟩

private theorem unwon (exclusive : Exclusive terms state) {orderId : String}
    (remembered : ∀ mark ∈ state.payments.store orderId,
      Remembered (· < ·) terms state.payments.clock mark)
    (free : ¬Lease.Taken terms state.payments.store state.payments.clock orderId) :
    ∀ winner ∈ state.winners, winner.orderId ≠ orderId := by
  intro winner won same
  rcases exclusive.settled winner won with ⟨holder, held, owner, out⟩ | ⟨since, confirmed⟩
  · have stands := exclusive.prompt holder held out
    apply free
    rw [← same, ← owner]
    exact exclusive.taken held stands
  · rw [same] at confirmed
    exact free ⟨_, confirmed, remembered _ confirmed⟩

private theorem goOn (exclusive : Exclusive terms state) (held : ⟨handler, since⟩ ∈ state.holders)
    (await : Await) :
    (∀ orderId, howMany (Holder.standing terms state.payments.clock orderId)
      (state.goOn ⟨handler, since⟩ await) ≤ 1) ∧
    ∀ holder ∈ state.goOn ⟨handler, since⟩ await,
      state.payments.clock < holder.since + terms.claimTimeout →
        state.payments.store holder.orderId = some (.claimed holder.since) := by
  constructor
  · intro orderId
    have before := howMany_erase
      (Holder.standing terms state.payments.clock orderId) held
    have same : Holder.standing terms state.payments.clock orderId
        ⟨{ handler with await }, since⟩ =
          Holder.standing terms state.payments.clock orderId ⟨handler, since⟩ := rfl
    rw [Fleet.goOn, howMany_cons, same, ← before]
    exact exclusive.one orderId
  · exact forall_cons_erase (exclusive.held ⟨handler, since⟩ held) exclusive.held

private theorem settled_goOn (exclusive : Exclusive terms state) {await : Await}
    (out : await.isOut = true) :
    ∀ winner ∈ state.winners,
      (∃ holder ∈ state.goOn ⟨handler, since⟩ await, holder.orderId = winner.orderId ∧
        holder.handler.await.isOut = true) ∨
      ∃ since, state.payments.store winner.orderId = some (.confirmed since) := by
  intro winner won
  rcases exclusive.settled winner won with ⟨holder, held, same, isOut⟩ | confirmed
  · by_cases mine : holder = ⟨handler, since⟩
    · subst mine
      exact .inl ⟨_, Multiset.mem_cons_self _ _, same, out⟩
    · have stays := (Multiset.mem_erase_of_ne mine).mpr held
      exact .inl ⟨holder, Multiset.mem_cons_of_mem stays, same, isOut⟩
  · exact .inr confirmed

private theorem leave (exclusive : Exclusive terms state) {next : Fleet}
    (fewer : next.holders ≤ state.holders)
    (clock : next.payments.clock = state.payments.clock)
    (store : next.payments.store = state.payments.store)
    (published : next.payments.published = state.payments.published)
    (winners : next.winners = state.winners)
    (stay : ∀ holder ∈ state.holders, holder.handler.await.isOut = true → holder ∈ next.holders) :
    Exclusive terms next where
  one orderId := by
    rw [clock]
    exact (Multiset.countP_le_of_le _ fewer).trans (exclusive.one orderId)
  held holder member := by
    rw [clock, store]
    exact exclusive.held holder (Multiset.mem_of_le fewer member)
  prompt holder member := by
    rw [clock]
    exact exclusive.prompt holder (Multiset.mem_of_le fewer member)
  settled winner won := by
    rw [winners] at won
    rw [store]
    rcases exclusive.settled winner won with ⟨holder, held, same, out⟩ | confirmed
    · exact .inl ⟨holder, stay holder held out, same, out⟩
    · exact .inr confirmed
  once := by
    rw [winners]
    exact exclusive.once
  published := by
    rw [published, winners]
    exact exclusive.published

/-- Where an order is free, every claim on it has lapsed. -/
theorem lapsed (exclusive : Exclusive terms state) {orderId : String}
    (free : ¬Lease.Taken terms state.payments.store state.payments.clock orderId) :
    ∀ holder ∈ state.holders, state.payments.clock < holder.since + terms.claimTimeout →
      holder.orderId ≠ orderId := by
  intro holder held stands same
  apply free
  rw [← same]
  exact exclusive.taken held stands

private theorem one_cons (exclusive : Exclusive terms state) {holder : Holder}
    (free : ¬Lease.Taken terms state.payments.store state.payments.clock holder.orderId)
    (orderId : String) :
    howMany (Holder.standing terms state.payments.clock orderId) (holder ::ₘ state.holders) ≤
      1 := by
  have before := exclusive.one orderId
  rw [howMany_cons]
  by_cases same : orderId = holder.orderId
  · have nobody : howMany (Holder.standing terms state.payments.clock orderId)
        state.holders = 0 := by
      apply Multiset.countP_eq_zero.mpr
      intro other held standing
      simp only [Holder.standing, Bool.and_eq_true, beq_iff_eq, decide_eq_true_eq] at standing
      exact exclusive.lapsed free other held standing.2 (standing.1.trans same)
    have atMost := Bool.toNat_le (Holder.standing terms state.payments.clock orderId holder)
    omega
  · have another : Holder.standing terms state.payments.clock orderId holder = false := by
      have different : holder.orderId ≠ orderId := fun equal => same equal.symm
      simp [Holder.standing, different]
    rw [another]
    simpa using before

private theorem refused (exclusive : Exclusive terms state)
    (taken : Lease.Taken terms state.payments.store state.payments.clock handler.orderId) :
    Exclusive terms (state.perform terms ⟨.claim handler, since⟩) := by
  have refused := Lease.firstTime_of_taken taken
  apply exclusive.leave
  · simp only [Fleet.perform, Fleet.holdersAfter, refused, Bool.false_eq_true, if_false]
    exact le_rfl
  · simp [Fleet.perform, Payments.perform, refused, Payments.goOn, Payments.serviceDid]
  · simp [Fleet.perform, Payments.perform, refused, Payments.goOn, Payments.serviceDid]
  · simp [Fleet.perform, Payments.perform, refused, Payments.goOn, Payments.serviceDid]
  · rfl
  · intro holder held _
    simpa [Fleet.perform, Fleet.holdersAfter, refused] using held

/-- A claim that is won is the only one that stands, and nobody has published. -/
theorem claim (exclusive : Exclusive terms state)
    (inTime : InTime (· < ·) terms state ⟨.claim handler, since⟩) :
    Exclusive terms (state.perform terms ⟨.claim handler, since⟩) := by
  by_cases taken : Lease.Taken terms state.payments.store state.payments.clock handler.orderId
  · exact exclusive.refused taken
  · have won := Lease.firstTime_of_free taken
    have unwon := exclusive.unwon inTime taken
    constructor
    · intro orderId
      simp only [Fleet.perform, Fleet.holdersAfter, Payments.perform, won, if_true, Payments.goOn]
      let holder : Holder := ⟨{ handler with await := .publish false }, state.payments.clock⟩
      have free : ¬Lease.Taken terms state.payments.store state.payments.clock holder.orderId :=
        taken
      exact exclusive.one_cons free orderId
    · intro holder member stands
      simp only [Fleet.perform, Fleet.holdersAfter, Payments.perform, won, if_true, Payments.goOn]
        at member stands ⊢
      rcases Multiset.mem_cons.mp member with equal | other
      · subst equal
        exact Function.update_self ..
      · rw [Function.update_of_ne (exclusive.lapsed taken holder other stands)]
        exact exclusive.held holder other stands
    · intro holder member out
      simp only [Fleet.perform, Fleet.holdersAfter, Payments.perform, won, if_true, Payments.goOn]
        at member ⊢
      rcases Multiset.mem_cons.mp member with equal | other
      · subst equal
        simp [Await.isOut] at out
      · exact exclusive.prompt holder other out
    · intro winner before
      simp only [Fleet.perform, Fleet.holdersAfter, Payments.perform, won, if_true, Payments.goOn]
      rw [Function.update_of_ne (unwon winner before)]
      rcases exclusive.settled winner before with ⟨holder, held, same, out⟩ | confirmed
      · exact .inl ⟨holder, Multiset.mem_cons_of_mem held, same, out⟩
      · exact .inr confirmed
    · exact exclusive.once
    · simp only [Fleet.perform, Fleet.winnersAfter, Payments.perform, won, if_true, Payments.goOn]
      exact exclusive.published

private theorem publish (exclusive : Exclusive terms state)
    (inTime : InTime (· < ·) terms state ⟨.publish handler, since⟩)
    (enabled : (fleet terms).Enabled state ⟨.publish handler, since⟩) :
    Exclusive terms (state.perform terms ⟨.publish handler, since⟩) := by
  have held : ⟨handler, since⟩ ∈ state.holders := enabled.2
  have silent : handler.await.isOut = false := by simp [enabled.1.2, Await.isOut]
  have moved := exclusive.goOn held (.publish true)
  have first : ∀ winner ∈ state.winners, winner.orderId ≠ handler.delivery.orderId := by
    intro winner won same
    rcases exclusive.settled winner won with ⟨holder, member, owner, out⟩ | ⟨since, confirmed⟩
    · have another : holder ≠ ⟨handler, since⟩ := by
        intro equal
        subst equal
        simp [silent] at out
      have stays := (Multiset.mem_erase_of_ne another).mpr member
      exact exclusive.alone held inTime stays (owner.trans same)
        (exclusive.prompt holder member out)
    · have claimed := exclusive.held ⟨handler, _⟩ held inTime
      rw [same] at confirmed
      exact absurd (claimed.symm.trans confirmed) (by simp)
  constructor
  · exact moved.1
  · exact moved.2
  · exact forall_cons_erase (fun _ => inTime) exclusive.prompt
  · intro winner won
    rcases List.mem_append.mp won with before | now
    · exact exclusive.settled_goOn rfl winner before
    · cases List.mem_singleton.mp now
      exact .inl ⟨_, Multiset.mem_cons_self _ _, rfl, rfl⟩
  · simp only [Fleet.perform, Fleet.winnersAfter, List.map_append, List.map_cons, List.map_nil]
    apply List.nodup_append.mpr
    refine ⟨exclusive.once, List.nodup_singleton _, ?_⟩
    intro orderId before other now
    rcases List.mem_map.mp before with ⟨winner, won, same⟩
    rw [List.mem_singleton.mp now, ← same]
    exact first winner won
  · simp only [Fleet.perform, Fleet.winnersAfter, Payments.perform, Payments.goOn,
      List.map_append, List.map_cons, List.map_nil, exclusive.published]

private theorem sent (exclusive : Exclusive terms state)
    (enabled : (fleet terms).Enabled state ⟨.sent handler, since⟩) :
    Exclusive terms (state.perform terms ⟨.sent handler, since⟩) := by
  have held : ⟨handler, since⟩ ∈ state.holders := enabled.2
  have out : handler.await.isOut = true := by simp [enabled.1.2, Await.isOut]
  have moved := exclusive.goOn held .confirmation
  constructor
  · exact moved.1
  · exact moved.2
  · exact forall_cons_erase (fun _ => exclusive.prompt ⟨handler, since⟩ held out) exclusive.prompt
  · exact exclusive.settled_goOn rfl
  · exact exclusive.once
  · exact exclusive.published

private theorem confirm (exclusive : Exclusive terms state)
    (enabled : (fleet terms).Enabled state ⟨.confirm handler, since⟩) :
    Exclusive terms (state.perform terms ⟨.confirm handler, since⟩) := by
  have held : ⟨handler, since⟩ ∈ state.holders := enabled.2
  have out : handler.await.isOut = true := by simp [enabled.1.2, Await.isOut]
  have stands := exclusive.prompt _ held out
  constructor
  · intro orderId
    exact (Multiset.countP_le_of_le _ (Multiset.erase_le _ _)).trans (exclusive.one orderId)
  · intro holder member standsToo
    have another : holder.orderId ≠ handler.orderId :=
      fun same => exclusive.alone held stands member same standsToo
    have same : (state.payments.perform terms (.confirm handler)).store holder.orderId =
        state.payments.store holder.orderId := Function.update_of_ne another _ _
    exact same.trans (exclusive.held holder (Multiset.mem_of_mem_erase member) standsToo)
  · intro holder member
    exact exclusive.prompt holder (Multiset.mem_of_mem_erase member)
  · intro winner won
    by_cases mine : winner.orderId = handler.orderId
    · right
      rw [mine]
      exact ⟨state.payments.clock, Function.update_self ..⟩
    · have same : (state.payments.perform terms (.confirm handler)).store winner.orderId =
          state.payments.store winner.orderId := Function.update_of_ne mine _ _
      rcases exclusive.settled winner won with ⟨holder, member, owner, isOut⟩ | ⟨since, confirmed⟩
      · have another : holder ≠ ⟨handler, since⟩ := by
          intro equal
          subst equal
          exact mine owner.symm
        exact .inl ⟨holder, (Multiset.mem_erase_of_ne another).mpr member, owner, isOut⟩
      · exact .inr ⟨since, same.trans confirmed⟩
  · exact exclusive.once
  · exact exclusive.published

private theorem pass (exclusive : Exclusive terms state) {duration : Nat}
    (inTime : InTime (· < ·) terms state ⟨.pass duration, since⟩) :
    Exclusive terms (state.perform terms ⟨.pass duration, since⟩) where
  one orderId := by
    apply le_trans _ (exclusive.one orderId)
    simp only [howMany, Multiset.countP_eq_card_filter]
    apply Multiset.card_le_card
    apply Multiset.monotone_filter_right
    intro holder standing
    simp only [Holder.standing, Bool.and_eq_true] at standing ⊢
    have before : state.payments.clock ≤ state.payments.clock + duration := Nat.le_add_right _ _
    have later := of_decide_eq_true standing.2
    exact ⟨standing.1, decide_eq_true (before.trans_lt later)⟩
  held holder member stands := by
    have before : state.payments.clock ≤ state.payments.clock + duration := Nat.le_add_right _ _
    exact exclusive.held holder member (before.trans_lt stands)
  prompt := inTime
  settled := exclusive.settled
  once := exclusive.once
  published := exclusive.published

private theorem kept (exclusive : Exclusive terms state) (step : FleetAction)
    (inTime : InTime (· < ·) terms state step) (enabled : (fleet terms).Enabled state step) :
    Exclusive terms (state.perform terms step) := by
  rcases step with ⟨action, since⟩
  cases action with
  | place order correlation =>
      exact exclusive.leave le_rfl rfl rfl rfl rfl fun _ held _ => held
  | pass duration => exact exclusive.pass inTime
  | deliver delivery service =>
      exact exclusive.leave le_rfl rfl rfl rfl rfl fun _ held _ => held
  | claim handler => exact exclusive.claim inTime
  | publish handler => exact exclusive.publish inTime enabled
  | sent handler => exact exclusive.sent enabled
  | confirm handler => exact exclusive.confirm enabled
  | acknowledge handler =>
      exact exclusive.leave le_rfl rfl rfl rfl rfl fun _ held _ => held
  | raise handler =>
      have silent : handler.await.isOut = false := inTime
      refine exclusive.leave (Multiset.erase_le _ _) ?_ ?_ ?_ rfl ?_
      · simp only [Fleet.perform, Payments.perform]
        split <;> rfl
      · simp only [Fleet.perform, Payments.perform]
        split <;> rfl
      · simp only [Fleet.perform, Payments.perform]
        split <;> rfl
      · intro holder held out
        have another : holder ≠ ⟨handler, since⟩ := by
          intro equal
          subst equal
          simp [silent] at out
        exact (Multiset.mem_erase_of_ne another).mpr held
  | retry delivery =>
      exact exclusive.leave le_rfl rfl rfl rfl rfl fun _ held _ => held
  | crash service =>
      refine exclusive.leave (Multiset.filter_le _ _) rfl rfl rfl rfl ?_
      intro holder held out
      apply Multiset.mem_filter.mpr
      refine ⟨held, ?_⟩
      intro owner
      simp [inTime holder held owner] at out

end Exclusive

/-! ## The outcomes -/

def PaymentOutcome.isDeclined : PaymentOutcome → Bool
  | .captured _ => false
  | .declined _ => true

private theorem charge_isDeclined (order : OrderPlaced) :
    (charge order).isDeclined = true ↔ order.total > automaticLimit := by
  by_cases above : order.total > automaticLimit
  · simp [charge, above, PaymentOutcome.isDeclined]
  · simp [charge, above, PaymentOutcome.isDeclined]

/-- As long as its claims and confirmations are in time, a fleet of any size
publishes at most one outcome of an order, the one its winner's delivery calls
for. -/
theorem one_outcome_each {terms : Lease.Terms Nat} {state : Fleet}
    (reached : (fleet terms).Reached (InTime (· < ·) terms) state) :
    (state.payments.published.map fun event => event.outcome.orderId).Nodup ∧
      List.Forall₂ (fun event winner =>
          event.outcome.orderId = winner.orderId ∧
            (event.outcome.isDeclined = true ↔ winner.order.total > automaticLimit))
        state.payments.published state.winners := by
  have exclusive : Exclusive terms state :=
    reached.invariant (Exclusive terms) (fun _ first => by cases first; exact .initial)
      fun _ step exclusive inTime enabled => exclusive.kept step inTime enabled
  rw [exclusive.published]
  constructor
  · have same : (state.winners.map fun winner =>
          (⟨charge winner.order, winner.correlation⟩ : PublishedPayment)).map
            (fun event => event.outcome.orderId) = state.winners.map Delivery.orderId := by
      rw [List.map_map]
      exact List.map_congr_left fun winner _ => charge_orderId winner.order
    rw [same]
    exact exclusive.once
  · rw [List.forall₂_map_left_iff, List.forall₂_same]
    exact fun winner _ => ⟨charge_orderId winner.order, charge_isDeclined winner.order⟩

def publishAndConfirm (service : Nat) (delivery : Delivery) (since : Nat) : List FleetAction :=
  [⟨.publish ⟨service, delivery, .publish false⟩, since⟩,
    ⟨.sent ⟨service, delivery, .publish true⟩, since⟩,
    ⟨.confirm ⟨service, delivery, .confirmation⟩, since⟩]

def expensive : Delivery := ⟨⟨"order-2", "bob", "WIDGET", 80, 2000⟩, "order-2", 1⟩

def deliveredTwice (delivery : Delivery) : List FleetAction :=
  [⟨.place delivery.order delivery.correlation, 0⟩, ⟨.place delivery.order delivery.correlation, 0⟩,
    ⟨.deliver delivery 1, 0⟩, ⟨.deliver delivery 2, 0⟩]

/-- The first handler dies with its claim, which the second takes over; the
duplicate that comes back is refused. -/
theorem one_outcome_after_takeover : ∃ state : Fleet,
    state.payments.published = [⟨charge expensive.order, "order-2"⟩] ∧
      List.Forall₂ (fun event winner =>
          event.outcome.orderId = winner.orderId ∧
            (event.outcome.isDeclined = true ↔ winner.order.total > automaticLimit))
        state.payments.published state.winners := by
  have reached : (fleet chargedTerms).Reached (InTime (· < ·) chargedTerms) _ :=
    .of_run (deliveredTwice expensive ++ [⟨.claim ⟨1, expensive, .claim⟩, 0⟩, ⟨.crash 1, 0⟩,
        ⟨.pass (2 * minute), 0⟩, ⟨.claim ⟨2, expensive, .claim⟩, 0⟩] ++
      publishAndConfirm 2 expensive (2 * minute) ++
      [⟨.deliver expensive 1, 0⟩, ⟨.claim ⟨1, expensive, .claim⟩, 0⟩]) (.start rfl) rfl
  exact ⟨_, by decide, (one_outcome_each reached).2⟩

/-- At the very end of a term the order is to be had: two handlers publish, when
the first confirms exactly at its claim's timeout, or when a duplicate asks exactly
at the end of the retention. -/
theorem two_outcomes_at_term :
    (∃ state : Fleet, (fleet chargedTerms).Reached (InTime (· ≤ ·) chargedTerms) state ∧
      state.payments.clock = chargedTerms.claimTimeout ∧
      ¬(state.payments.published.map fun event => event.outcome.orderId).Nodup) ∧
    ∃ state : Fleet, (fleet chargedTerms).Reached (InTime (· ≤ ·) chargedTerms) state ∧
      some state.payments.clock = chargedTerms.retention ∧
      ¬(state.payments.published.map fun event => event.outcome.orderId).Nodup := by
  have slow : (fleet chargedTerms).Reached (InTime (· ≤ ·) chargedTerms) _ :=
    .of_run (deliveredTwice widget ++ [⟨.claim ⟨1, widget, .claim⟩, 0⟩,
        ⟨.publish ⟨1, widget, .publish false⟩, 0⟩, ⟨.sent ⟨1, widget, .publish true⟩, 0⟩,
        ⟨.pass (2 * minute), 0⟩, ⟨.claim ⟨2, widget, .claim⟩, 0⟩,
        ⟨.confirm ⟨1, widget, .confirmation⟩, 0⟩] ++
      publishAndConfirm 2 widget (2 * minute)) (.start rfl) rfl
  have late : (fleet chargedTerms).Reached (InTime (· ≤ ·) chargedTerms) _ :=
    .of_run (deliveredTwice widget ++ [⟨.claim ⟨1, widget, .claim⟩, 0⟩] ++
      publishAndConfirm 1 widget 0 ++
      [⟨.pass (7 * 24 * 60 * minute), 0⟩, ⟨.claim ⟨2, widget, .claim⟩, 0⟩] ++
      publishAndConfirm 2 widget (7 * 24 * 60 * minute)) (.start rfl) rfl
  exact ⟨⟨_, slow, by decide, by decide⟩, _, late, by decide, by decide⟩

end AmqpApps.Fulfilment
