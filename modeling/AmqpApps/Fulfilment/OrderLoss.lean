import AmqpApps.Foundation.KeyedBags
import AmqpApps.Fulfilment.Payments
import Mathlib.Tactic.Abel

/-! # Whether an order can be lost at payments

A refused claim is accepted, on the assumption that whoever holds the claim
will publish the outcome. That is so while the holder is at work, or has
published; it is not when the holder has raised or died.
-/

namespace AmqpApps.Fulfilment

def Delivery.orderId (delivery : Delivery) : String := delivery.order.orderId

namespace Payments

def Told (state : Payments) (orderId : String) : Prop :=
  ∃ event ∈ state.published, event.outcome.orderId = orderId

instance (state : Payments) (orderId : String) : Decidable (state.Told orderId) := by
  unfold Told
  infer_instance

/-- A handler that has won a claim on the order is at work on it. -/
def InHand (state : Payments) (orderId : String) : Prop :=
  ∃ handler ∈ state.handlers, handler.orderId = orderId ∧ handler.AtWork

instance (state : Payments) (orderId : String) : Decidable (state.InHand orderId) :=
  Multiset.decidableExistsMultiset

/-- The deliveries that are not accepted: queued, waiting, dead-lettered or
being handled. -/
def unaccepted (state : Payments) : Multiset Delivery :=
  state.queue + state.ladder + state.deadLetters + state.handlers.map Handler.delivery

def answering (handlers : Multiset Handler) : Multiset String :=
  (handlers.filter (·.await ≠ .acknowledgement)).map Handler.orderId

def answeredBy (handlers : Multiset Handler) : Multiset String :=
  (handlers.filter (·.await = .acknowledgement)).map Handler.orderId

def outstanding (state : Payments) : Multiset String :=
  (state.queue + state.ladder + state.deadLetters).map Delivery.orderId +
    answering state.handlers

def answered (state : Payments) : Multiset String :=
  state.accepted.map Delivery.orderId + answeredBy state.handlers

private theorem answering_cons (handler : Handler) (handlers : Multiset Handler) :
    answering (handler ::ₘ handlers) =
      (if handler.await = .acknowledgement then 0 else {handler.orderId}) +
        answering handlers := by
  by_cases returned : handler.await = .acknowledgement
  · simp [answering, returned]
  · simp [answering, returned]

private theorem answeredBy_cons (handler : Handler) (handlers : Multiset Handler) :
    answeredBy (handler ::ₘ handlers) =
      (if handler.await = .acknowledgement then {handler.orderId} else 0) +
        answeredBy handlers := by
  by_cases returned : handler.await = .acknowledgement
  · simp [answeredBy, returned]
  · simp [answeredBy, returned]

private theorem answering_add (handlers more : Multiset Handler) :
    answering (handlers + more) = answering handlers + answering more := by
  simp [answering]

private theorem mem_outstanding {state : Payments} {orderId : String} :
    orderId ∈ state.outstanding ↔
      (∃ delivery ∈ state.queue, delivery.orderId = orderId) ∨
      (∃ delivery ∈ state.ladder, delivery.orderId = orderId) ∨
      (∃ delivery ∈ state.deadLetters, delivery.orderId = orderId) ∨
      ∃ handler ∈ state.handlers, handler.await ≠ .acknowledgement ∧
        handler.orderId = orderId := by
  simp [outstanding, answering, or_assoc, and_assoc]

private theorem mem_answered {state : Payments} {orderId : String} :
    orderId ∈ state.answered ↔
      (∃ delivery ∈ state.accepted, delivery.orderId = orderId) ∨
      ∃ handler ∈ state.handlers, handler.await = .acknowledgement ∧
        handler.orderId = orderId := by
  simp [answered, answeredBy, and_assoc]

private theorem mem_outstanding_of_handler {state : Payments} {handler : Handler}
    (member : handler ∈ state.handlers) (busy : handler.await ≠ .acknowledgement) :
    handler.orderId ∈ state.outstanding := by
  exact mem_outstanding.mpr (.inr (.inr (.inr ⟨handler, member, busy, rfl⟩)))

private theorem outstanding_goOn {state : Payments} {handler : Handler} (await : Await)
    (member : handler ∈ state.handlers) (busy : handler.await ≠ .acknowledgement)
    (more : await ≠ .acknowledgement) :
    (state.goOn handler await).outstanding = state.outstanding ∧
      (state.goOn handler await).answered = state.answered := by
  have split := Multiset.cons_erase member
  constructor
  · rw [outstanding, outstanding]
    conv_rhs => rw [← split]
    simp only [goOn, answering_cons, if_neg busy, if_neg more]
    rfl
  · rw [answered, answered]
    conv_rhs => rw [← split]
    simp only [goOn, answeredBy_cons, if_neg busy, if_neg more]

private theorem outstanding_return {state : Payments} {handler : Handler}
    (member : handler ∈ state.handlers) (busy : handler.await ≠ .acknowledgement) :
    state.outstanding =
        handler.orderId ::ₘ (state.goOn handler .acknowledgement).outstanding ∧
      (state.goOn handler .acknowledgement).answered = handler.orderId ::ₘ state.answered := by
  have split := Multiset.cons_erase member
  constructor
  · rw [outstanding, outstanding]
    conv_lhs => rw [← split]
    simp only [goOn, answering_cons, if_neg busy, if_true, zero_add]
    rw [add_left_comm, Multiset.singleton_add]
  · rw [answered, answered]
    conv_rhs => rw [← split]
    simp only [goOn, answeredBy_cons, if_neg busy, if_true, zero_add]
    rw [add_left_comm, Multiset.singleton_add]
    rfl

end Payments

/-- No claim is asked for while it is held for a handler that is no longer at
work and has not published. -/
def ClaimantsLive (terms : Lease.Terms Nat) (state : Payments) : PaymentsAction → Prop
  | .claim handler =>
      ∀ mark ∈ state.store handler.orderId, mark.pending = true →
        mark.Stands terms state.clock →
        state.Told handler.orderId ∨ state.InHand handler.orderId
  | _ => True

instance (terms : Lease.Terms Nat) (state : Payments) (action : PaymentsAction) :
    Decidable (ClaimantsLive terms state action) := by
  rcases action with ⟨⟩ <;> unfold ClaimantsLive <;> infer_instance

/-! ## The invariant -/

structure Faithful (state : Payments) : Prop where
  confirmed : ∀ orderId since, state.store orderId = some (.confirmed since) →
    state.Told orderId
  told : ∀ handler ∈ state.handlers,
    handler.await = .publish true ∨ handler.await = .confirmation → state.Told handler.orderId
  answered : ∀ orderId ∈ state.answered, state.Told orderId ∨ orderId ∈ state.outstanding

private theorem Faithful.initial : Faithful Payments.initial where
  confirmed := by simp [Payments.initial, Lease.Store.empty]
  told := by simp [Payments.initial]
  answered := by simp [Payments.initial, Payments.answered, Payments.answeredBy]

namespace Faithful

variable {state : Payments} {handler : Handler}

private theorem told_goOn (faithful : Faithful state) (await : Await)
    (mine : await = .publish true ∨ await = .confirmation → state.Told handler.orderId) :
    ∀ other ∈ (state.goOn handler await).handlers,
      other.await = .publish true ∨ other.await = .confirmation →
        state.Told other.orderId :=
  forall_cons_erase mine faithful.told

private theorem answered_goOn (faithful : Faithful state) (await : Await)
    (member : handler ∈ state.handlers) (busy : handler.await ≠ .acknowledgement)
    (more : await ≠ .acknowledgement) :
    ∀ orderId ∈ (state.goOn handler await).answered,
      state.Told orderId ∨ orderId ∈ (state.goOn handler await).outstanding := by
  have moved := Payments.outstanding_goOn await member busy more
  intro orderId present
  rw [moved.2] at present
  rw [moved.1]
  exact faithful.answered orderId present

private theorem answered_return (state : Payments)
    (answered : ∀ orderId ∈ state.answered, state.Told orderId ∨ orderId ∈ state.outstanding)
    (member : handler ∈ state.handlers) (busy : handler.await ≠ .acknowledgement)
    (mine : state.Told handler.orderId ∨
      handler.orderId ∈ (state.goOn handler .acknowledgement).outstanding) :
    ∀ orderId ∈ (state.goOn handler .acknowledgement).answered,
      state.Told orderId ∨ orderId ∈ (state.goOn handler .acknowledgement).outstanding := by
  have moved := Payments.outstanding_return member busy
  intro orderId present
  rw [moved.2] at present
  by_cases same : orderId = handler.orderId
  · subst same
    exact mine
  · have before := (Multiset.mem_cons.mp present).resolve_left same
    rcases answered orderId before with told | still
    · exact .inl told
    · rw [moved.1] at still
      exact .inr ((Multiset.mem_cons.mp still).resolve_left same)

private theorem claim (faithful : Faithful state) {terms : Lease.Terms Nat}
    (live : ClaimantsLive terms state (.claim handler)) (member : handler ∈ state.handlers)
    (claiming : handler.await = .claim) :
    Faithful (state.perform terms (.claim handler)) := by
  have busy : handler.await ≠ .acknowledgement := by simp [claiming]
  by_cases taken : Lease.Taken terms state.store state.clock handler.orderId
  · have refused := Lease.firstTime_of_taken taken
    simp only [Payments.perform, refused, Bool.false_eq_true, if_false]
    refine ⟨faithful.confirmed, faithful.told_goOn _ (by simp), ?_⟩
    apply answered_return (state.serviceDid handler.service .refuse) faithful.answered member busy
    rcases taken with ⟨mark, held, stands⟩
    cases mark with
    | confirmed since => exact .inl (faithful.confirmed _ since held)
    | claimed since =>
        rcases live _ held rfl stands with told | ⟨other, present, same, working⟩
        · exact .inl told
        · have different : other ≠ handler := by
            intro equal
            subst equal
            exact working.1 claiming
          right
          rw [← same]
          apply Payments.mem_outstanding_of_handler _ working.2
          exact Multiset.mem_cons_of_mem ((Multiset.mem_erase_of_ne different).mpr present)
  · have won := Lease.firstTime_of_free taken
    simp only [Payments.perform, won, if_true]
    refine ⟨?_, faithful.told_goOn _ (by simp),
      faithful.answered_goOn (.publish false) member busy (by simp)⟩
    intro orderId since confirmed
    have answer : (Lease.firstTime terms state.store state.clock handler.orderId).2 orderId =
        some (.confirmed since) := by
      rw [won]
      exact confirmed
    exact faithful.confirmed orderId since (Lease.confirmed_before_firstTime answer)

/-- A step that leaves the store and the publications alone, adds no handler
past its claim, answers for nothing new and loses nothing outstanding. -/
theorem of_fewer (faithful : Faithful state) {next : Payments}
    (store : next.store = state.store) (published : next.published = state.published)
    (handlers : ∀ handler ∈ next.handlers, handler ∈ state.handlers ∨ handler.await = .claim)
    (answered : next.answered ≤ state.answered)
    (outstanding : state.outstanding ≤ next.outstanding) :
    Faithful next := by
  have told : ∀ orderId, state.Told orderId → next.Told orderId := by
    intro orderId
    simp only [Payments.Told, published]
    exact id
  constructor
  · intro orderId since confirmed
    rw [store] at confirmed
    exact told _ (faithful.confirmed orderId since confirmed)
  · intro handler member awaiting
    rcases handlers handler member with before | claiming
    · exact told _ (faithful.told handler before awaiting)
    · simp [claiming] at awaiting
  · intro orderId present
    rcases faithful.answered orderId (Multiset.mem_of_le answered present) with old | still
    · exact .inl (told _ old)
    · exact .inr (Multiset.mem_of_le outstanding still)

private theorem publish (faithful : Faithful state) (terms : Lease.Terms Nat)
    (member : handler ∈ state.handlers) (publishing : handler.await = .publish false) :
    Faithful (state.perform terms (.publish handler)) := by
  have busy : handler.await ≠ .acknowledgement := by simp [publishing]
  have told : ∀ orderId, state.Told orderId →
      (state.perform terms (.publish handler)).Told orderId := by
    rintro orderId ⟨event, present, same⟩
    exact ⟨event, List.mem_append_left _ present, same⟩
  have mine : (state.perform terms (.publish handler)).Told handler.orderId :=
    ⟨_, List.mem_append_right _ (List.mem_singleton_self _), charge_orderId _⟩
  refine ⟨fun orderId since confirmed => told _ (faithful.confirmed orderId since confirmed),
    ?_, ?_⟩
  · refine forall_cons_erase (fun _ => mine) ?_
    intro other present awaiting
    exact told _ (faithful.told other present awaiting)
  · intro orderId present
    have before := faithful.answered_goOn (.publish true) member busy (by simp) orderId present
    exact before.imp_left (told orderId)

private theorem sent (faithful : Faithful state) (terms : Lease.Terms Nat)
    (member : handler ∈ state.handlers) (publishing : handler.await = .publish true) :
    Faithful (state.perform terms (.sent handler)) := by
  have busy : handler.await ≠ .acknowledgement := by simp [publishing]
  have mine := faithful.told handler member (.inl publishing)
  exact ⟨faithful.confirmed, faithful.told_goOn _ fun _ => mine,
    faithful.answered_goOn .confirmation member busy (by simp)⟩

private theorem confirm (faithful : Faithful state) (terms : Lease.Terms Nat)
    (member : handler ∈ state.handlers) (confirming : handler.await = .confirmation) :
    Faithful (state.perform terms (.confirm handler)) := by
  have busy : handler.await ≠ .acknowledgement := by simp [confirming]
  have mine := faithful.told handler member (.inr confirming)
  refine ⟨?_, faithful.told_goOn _ (by simp), ?_⟩
  · intro orderId since confirmed
    rcases Lease.confirmed_of_confirm confirmed with same | before
    · rw [same]
      exact mine
    · exact faithful.confirmed orderId since before
  · exact answered_return { state with store := _ } faithful.answered member busy (.inl mine)

private theorem acknowledge (faithful : Faithful state) (terms : Lease.Terms Nat)
    (member : handler ∈ state.handlers) (returned : handler.await = .acknowledgement) :
    Faithful (state.perform terms (.acknowledge handler)) := by
  have split := Multiset.cons_erase member
  refine faithful.of_fewer rfl rfl
    (fun other present => .inl (Multiset.mem_of_mem_erase present)) (le_of_eq ?_) (le_of_eq ?_)
  · rw [Payments.answered, Payments.answered]
    conv_rhs => rw [← split]
    simp only [Payments.perform, Payments.answeredBy_cons, returned, if_true,
      Multiset.map_cons, Handler.orderId, Delivery.orderId]
    rw [← Multiset.singleton_add]
    abel
  · rw [Payments.outstanding, Payments.outstanding]
    conv_lhs => rw [← split]
    simp [Payments.perform, Payments.answering_cons, returned]

private theorem deliver (faithful : Faithful state) (terms : Lease.Terms Nat) {delivery : Delivery}
    (service : Nat) (member : delivery ∈ state.queue) :
    Faithful (state.perform terms (.deliver delivery service)) := by
  have split := Multiset.cons_erase member
  apply faithful.of_fewer
  · rfl
  · rfl
  · intro other present
    rcases Multiset.mem_cons.mp present with new | old
    · exact .inr (by rw [new])
    · exact .inl old
  · apply le_of_eq
    simp [Payments.perform, Payments.answered, Payments.answeredBy_cons]
  · apply le_of_eq
    rw [Payments.outstanding, Payments.outstanding]
    conv_lhs => rw [← split]
    simp only [Payments.perform, Payments.answering_cons, Multiset.map_add, Multiset.map_cons,
      Handler.orderId, Delivery.orderId, reduceCtorEq, if_false]
    rw [← Multiset.singleton_add]
    abel

private theorem raise (faithful : Faithful state) (terms : Lease.Terms Nat)
    (member : handler ∈ state.handlers) (busy : handler.await ≠ .acknowledgement) :
    Faithful (state.perform terms (.raise handler)) := by
  have split := Multiset.cons_erase member
  have answered : Payments.answeredBy (state.handlers.erase handler) =
      Payments.answeredBy state.handlers := by
    conv_rhs => rw [← split]
    rw [Payments.answeredBy_cons, if_neg busy, zero_add]
  have answering : Payments.answering state.handlers =
      {handler.orderId} + Payments.answering (state.handlers.erase handler) := by
    conv_lhs => rw [← split]
    rw [Payments.answering_cons, if_neg busy]
  have left : ∀ other ∈ state.handlers.erase handler,
      other ∈ state.handlers ∨ other.await = .claim :=
    fun other present => .inl (Multiset.mem_of_mem_erase present)
  simp only [Payments.perform]
  split
  · refine faithful.of_fewer rfl rfl left (le_of_eq ?_) (le_of_eq ?_)
    · simp only [Payments.answered, answered]
    · simp only [Payments.outstanding, answering, Multiset.map_add, Multiset.map_cons,
        Handler.orderId, Delivery.orderId]
      rw [← Multiset.singleton_add]
      abel
  · refine faithful.of_fewer rfl rfl left (le_of_eq ?_) (le_of_eq ?_)
    · simp only [Payments.answered, answered]
    · simp only [Payments.outstanding, answering, Multiset.map_add, Multiset.map_cons,
        Handler.orderId, Delivery.orderId]
      rw [← Multiset.singleton_add]
      abel

private theorem retry (faithful : Faithful state) (terms : Lease.Terms Nat) {delivery : Delivery}
    (member : delivery ∈ state.ladder) : Faithful (state.perform terms (.retry delivery)) := by
  have split := Multiset.cons_erase member
  refine faithful.of_fewer rfl rfl (fun _ present => .inl present) le_rfl (le_of_eq ?_)
  rw [Payments.outstanding, Payments.outstanding]
  conv_lhs => rw [← split]
  simp only [Payments.perform, Multiset.map_add, Multiset.map_cons]
  simp only [← Multiset.singleton_add]
  abel

private theorem crash (faithful : Faithful state) (terms : Lease.Terms Nat) (service : Nat) :
    Faithful (state.perform terms (.crash service)) := by
  apply faithful.of_fewer
  · rfl
  · rfl
  · exact fun other present => .inl (Multiset.mem_of_mem_filter present)
  · apply Multiset.add_le_add_left
    apply Multiset.map_le_map
    exact Multiset.filter_le_filter _ (Multiset.filter_le _ _)
  · have dead : Payments.answering (state.handlers.filter (·.service = service)) ≤
        ((state.handlers.filter (·.service = service)).map Handler.delivery).map
          Delivery.orderId := by
      rw [Multiset.map_map]
      exact Multiset.map_le_map (Multiset.filter_le _ _)
    calc state.outstanding
        = (state.queue + state.ladder + state.deadLetters).map Delivery.orderId +
            (Payments.answering (state.handlers.filter (·.service = service)) +
              Payments.answering (state.handlers.filter (·.service ≠ service))) := by
          rw [← Payments.answering_add, Multiset.filter_add_not]
          rfl
      _ ≤ (state.queue + state.ladder + state.deadLetters).map Delivery.orderId +
            (((state.handlers.filter (·.service = service)).map Handler.delivery).map
              Delivery.orderId +
              Payments.answering (state.handlers.filter (·.service ≠ service))) :=
          Multiset.add_le_add_left (Multiset.add_le_add_right dead)
      _ = (state.perform terms (.crash service)).outstanding := by
          simp only [Payments.outstanding, Payments.perform, Multiset.map_add]
          abel

private theorem kept (faithful : Faithful state) {terms : Lease.Terms Nat} (action : PaymentsAction)
    (live : ClaimantsLive terms state action) (enabled : state.Enabled action) :
    Faithful (state.perform terms action) := by
  cases action with
  | place order correlation =>
      refine faithful.of_fewer rfl rfl (fun _ present => .inl present) le_rfl ?_
      simp only [Payments.outstanding, Payments.perform, Multiset.map_add, Multiset.map_cons,
        Multiset.cons_add]
      exact Multiset.le_cons_self _ _
  | pass duration => exact ⟨faithful.confirmed, faithful.told, faithful.answered⟩
  | deliver delivery service => exact faithful.deliver terms service enabled
  | claim handler => exact faithful.claim live enabled.1 enabled.2
  | publish handler => exact faithful.publish terms enabled.1 enabled.2
  | sent handler => exact faithful.sent terms enabled.1 enabled.2
  | confirm handler => exact faithful.confirm terms enabled.1 enabled.2
  | acknowledge handler => exact faithful.acknowledge terms enabled.1 enabled.2
  | raise handler => exact faithful.raise terms enabled.1 enabled.2
  | retry delivery => exact faithful.retry terms enabled
  | crash service => exact faithful.crash terms service

end Faithful

/-- As long as no claim is refused on behalf of a handler that has given up, an
order all of whose deliveries are accepted has its outcome published. -/
theorem order_told_of {terms : Lease.Terms Nat} {state : Payments}
    (reached : (payments terms).Reached (ClaimantsLive terms) state) {delivery : Delivery}
    (accepted : delivery ∈ state.accepted)
    (all : ∀ other ∈ state.unaccepted, other.orderId ≠ delivery.orderId) :
    state.Told delivery.orderId := by
  have faithful : Faithful state :=
    reached.invariant Faithful (fun _ first => by cases first; exact .initial)
      fun _ action faithful live enabled => faithful.kept action live enabled
  have answered : delivery.orderId ∈ state.answered :=
    Payments.mem_answered.mpr (.inl ⟨delivery, accepted, rfl⟩)
  rcases faithful.answered _ answered with told | outstanding
  · exact told
  · simp only [Payments.unaccepted, Multiset.mem_add, Multiset.mem_map] at all
    rcases Payments.mem_outstanding.mp outstanding with ⟨other, member, same⟩ |
      ⟨other, member, same⟩ | ⟨other, member, same⟩ | ⟨handler, member, -, same⟩
    · exact absurd same (all other (.inl (.inl (.inl member))))
    · exact absurd same (all other (.inl (.inl (.inr member))))
    · exact absurd same (all other (.inl (.inr member)))
    · exact absurd same (all handler.delivery (.inr ⟨handler, member, rfl⟩))

def widget : Delivery := ⟨⟨"order-1", "ada", "WIDGET", 1, 25⟩, "order-1", 1⟩

/-- A duplicate is refused while the first handler is at work, which then
publishes. -/
theorem duplicate_order_told_of : ∃ state : Payments,
    state.unaccepted = 0 ∧ state.accepted = {widget, widget} ∧ state.Told "order-1" := by
  have reached : (payments chargedTerms).Reached (ClaimantsLive chargedTerms) _ :=
    .of_run [.place widget.order "order-1", .place widget.order "order-1",
      .deliver widget 1, .deliver widget 2, .claim ⟨1, widget, .claim⟩,
      .claim ⟨2, widget, .claim⟩, .acknowledge ⟨2, widget, .acknowledgement⟩,
      .publish ⟨1, widget, .publish false⟩, .sent ⟨1, widget, .publish true⟩,
      .confirm ⟨1, widget, .confirmation⟩, .acknowledge ⟨1, widget, .acknowledgement⟩]
      (.start rfl) rfl
  have accepted : widget ∈ ({widget, widget} : Multiset Delivery) := by decide
  exact ⟨_, by decide, by decide, order_told_of reached accepted (by decide)⟩

/-- The publish raises, and the retry finds the order claimed. -/
theorem order_lost_after_failed_publish : ¬ ∀ state : Payments,
    (payments chargedTerms).Reached TransitionSystem.anyStep state →
      ∀ delivery ∈ state.accepted,
        (∀ other ∈ state.unaccepted, other.orderId ≠ delivery.orderId) →
          state.Told delivery.orderId := by
  intro told
  let again : Delivery := { widget with attempt := 2 }
  have reached : (payments chargedTerms).Reached TransitionSystem.anyStep _ :=
    .of_run [.place widget.order "order-1", .deliver widget 1, .claim ⟨1, widget, .claim⟩,
      .raise ⟨1, widget, .publish false⟩, .pass 200000, .retry again, .deliver again 1,
      .claim ⟨1, again, .claim⟩, .acknowledge ⟨1, again, .acknowledgement⟩] (.start rfl) rfl
  have lost := told _ reached again (by decide) (by decide)
  revert lost
  decide

end AmqpApps.Fulfilment
