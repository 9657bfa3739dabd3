import AmqpApps.Fulfilment.DeadLetters
import AmqpApps.Fulfilment.Settling
import AmqpApps.Fulfilment.Timeline

/-! # Every order that is announced is told of to its end

That a timeline tells a part of a story says nothing about how far it gets. When the
services have come to rest it has got to the end, unless the payment was given up.
-/

namespace AmqpApps.Fulfilment

namespace Services

variable {terms : Lease.Terms Nat} {state next : Services} {message : Carried}
variable {orderId : String}

/-! ## No order is lost at payments -/

def Awaiting (state : Services) (orderId : String) (await : Await) : Prop :=
  ∃ paying, state.paying = some paying ∧ paying.order.orderId = orderId ∧ paying.await = await

/-- An order that has been placed has an outcome, or is on its way to one. A mark in the
store that nobody is working on stands for an outcome. -/
structure Attended (state : Services) : Prop where
  coming : ∀ orderId, 0 < state.times "OrderPlaced" orderId →
    0 < state.paid orderId ∨ 0 < state.waiting .payments orderId ∨
      state.Awaiting orderId .claim ∨ state.Awaiting orderId (.publish false)
  marked : ∀ orderId, state.charged orderId ≠ none →
    0 < state.paid orderId ∨ state.Awaiting orderId (.publish false)
  out : ∀ paying, state.paying = some paying → paying.await.isOut = true →
    0 < state.paid paying.order.orderId

namespace Attended

private theorem initial : Attended .initial where
  coming orderId placed := by simp [times, typesOf, Services.initial] at placed
  marked orderId mark := by simp [Services.initial, Lease.Store.empty] at mark
  out paying held := by cases held

private theorem of_same (attended : Attended state)
    (placed : ∀ orderId, next.times "OrderPlaced" orderId = state.times "OrderPlaced" orderId)
    (paid : ∀ orderId, state.paid orderId ≤ next.paid orderId)
    (waiting : ∀ orderId, next.waiting .payments orderId = state.waiting .payments orderId)
    (charged : next.charged = state.charged) (paying : next.paying = state.paying) :
    Attended next where
  coming orderId announced := by
    rw [placed] at announced
    simp only [Awaiting, waiting, paying]
    exact (attended.coming orderId announced).imp_left (·.trans_le (paid orderId))
  marked orderId mark := by
    rw [charged] at mark
    simp only [Awaiting, paying]
    exact (attended.marked orderId mark).imp_left (·.trans_le (paid orderId))
  out handler held isOut := by
    rw [paying] at held
    exact (attended.out handler held isOut).trans_le (paid _)

private theorem relay (attended : Attended state) (order : OrderPlaced) :
    Attended (state.post ⟨.placed order, order.orderId⟩) := by
  have paid : ∀ orderId, (state.post ⟨.placed order, order.orderId⟩).paid orderId =
      state.paid orderId := fun _ => paid_post (by simp [Event.type])
  have counted : ∀ orderId, (state.post ⟨.placed order, order.orderId⟩).times "OrderPlaced"
        orderId = state.times "OrderPlaced" orderId +
          (Event.placed order).counts "OrderPlaced" orderId :=
    fun _ => times_post _ _
  have queued : ∀ orderId,
      (state.post ⟨.placed order, order.orderId⟩).waiting .payments orderId =
        state.waiting .payments orderId + (Event.placed order).counts "OrderPlaced" orderId :=
    fun orderId => waiting_post state orderId (Event.routed_topology _ .payments)
  constructor
  · intro orderId announced
    rw [counted] at announced
    rw [paid, queued]
    by_cases mine : 0 < (Event.placed order).counts "OrderPlaced" orderId
    · exact .inr (.inl (by omega))
    · rcases attended.coming orderId (by omega) with paid | waiting | held
      · exact .inl paid
      · exact .inr (.inl (by omega))
      · exact .inr (.inr held)
  · intro orderId mark
    rw [paid]
    exact attended.marked orderId mark
  · intro paying held isOut
    rw [paid]
    exact attended.out paying held isOut

private theorem take (attended : Attended state) {rest : List Carried} {order : OrderPlaced}
    (waiting : state.queues .payments = message :: rest) (idle : state.paying = none)
    (event : message.post.event = .placed order) :
    Attended { state with
      queues := Function.update state.queues .payments rest
      paying := some ⟨order, message.post.correlation, .claim⟩ } where
  coming orderId announced := by
    rcases attended.coming orderId announced with
      paid | queued | ⟨paying, held, -⟩ | ⟨paying, held, -⟩
    · exact .inl paid
    · rw [waiting_cons orderId waiting, Carried.isAbout, event] at queued
      by_cases mine : order.orderId = orderId
      · exact .inr (.inr (.inl ⟨_, rfl, mine, rfl⟩))
      · refine .inr (.inl ?_)
        have other : ((Event.placed order).orderId == orderId) = false := by
          simpa [Event.orderId] using mine
        rw [other] at queued
        simpa [Services.waiting] using queued
    · rw [idle] at held
      cases held
    · rw [idle] at held
      cases held
  marked orderId mark := by
    rcases attended.marked orderId mark with paid | ⟨paying, held, -⟩
    · exact .inl paid
    · rw [idle] at held
      cases held
  out paying held isOut := by
    cases held
    cases isOut

private theorem claim (attended : Attended state) (enabled : state.Enabled .claim) :
    Attended (state.perform terms .claim) := by
  rcases Option.map_eq_some_iff.mp enabled with ⟨paying, held, waits⟩
  have unmarked : ∀ orderId, ¬state.Awaiting orderId (.publish false) := by
    rintro orderId ⟨other, same, -, publishes⟩
    rw [held] at same
    cases same
    rw [waits] at publishes
    cases publishes
  have decided : ∀ orderId, state.charged orderId ≠ none → 0 < state.paid orderId :=
    fun orderId mark => (attended.marked orderId mark).resolve_right (unmarked orderId)
  have others : ∀ orderId, 0 < state.times "OrderPlaced" orderId →
      orderId ≠ paying.order.orderId →
        0 < state.paid orderId ∨ 0 < state.waiting .payments orderId := by
    intro orderId announced different
    rcases attended.coming orderId announced with
      paid | waiting | ⟨other, same, about, -⟩ | publishes
    · exact .inl paid
    · exact .inr waiting
    · rw [held] at same
      cases same
      exact absurd about.symm different
    · exact absurd publishes (unmarked orderId)
  simp only [perform, held]
  by_cases taken : Lease.Taken terms state.charged state.clock paying.order.orderId
  · have marked : state.charged paying.order.orderId ≠ none := by
      rcases taken with ⟨mark, present, -⟩
      rw [Option.mem_def.mp present]
      exact Option.some_ne_none mark
    rw [Lease.firstTime_of_taken taken]
    exact {
      coming := by
        intro orderId announced
        by_cases same : orderId = paying.order.orderId
        · rw [same]
          exact .inl (decided _ marked)
        · exact (others orderId announced same).imp_right .inl
      marked := fun orderId mark => .inl (decided orderId mark)
      out := fun other holding => by cases holding }
  · rw [Lease.firstTime_of_free taken]
    exact {
      coming := by
        intro orderId announced
        by_cases same : orderId = paying.order.orderId
        · exact .inr (.inr (.inr ⟨_, rfl, same.symm, rfl⟩))
        · exact (others orderId announced same).imp_right .inl
      marked := by
        intro orderId mark
        by_cases same : orderId = paying.order.orderId
        · exact .inr ⟨_, rfl, same.symm, rfl⟩
        · exact .inl (decided orderId (by simpa [Function.update_of_ne same] using mark))
      out := by
        intro other holding isOut
        cases holding
        cases isOut }

private theorem confirm (attended : Attended state) (enabled : state.Enabled .confirm) :
    Attended (state.perform terms .confirm) := by
  rcases Option.map_eq_some_iff.mp enabled with ⟨paying, held, waits⟩
  have done : 0 < state.paid paying.order.orderId :=
    attended.out paying held (by rw [waits]; rfl)
  have free : ∀ orderId await, await ≠ .confirmation → ¬state.Awaiting orderId await := by
    rintro orderId await other ⟨holder, same, -, awaits⟩
    rw [held] at same
    cases same
    exact other (awaits.symm.trans waits)
  simp only [perform, held]
  exact {
    coming := by
      intro orderId announced
      rcases attended.coming orderId announced with paid | waiting | claims | publishes
      · exact .inl paid
      · exact .inr (.inl waiting)
      · exact absurd claims (free orderId _ (by decide))
      · exact absurd publishes (free orderId _ (by decide))
    marked := by
      intro orderId mark
      by_cases same : orderId = paying.order.orderId
      · rw [same]
        exact .inl done
      · have before : state.charged orderId ≠ none := by
          simpa [Lease.confirm, Function.update_of_ne same] using mark
        exact .inl ((attended.marked orderId before).resolve_right (free orderId _ (by decide)))
    out := fun other holding => by cases holding }

private theorem charge (attended : Attended state) {post : Post}
    (outgoing : state.outgoing .payments = some post) :
    Attended ((state.markOut .payments).post post) := by
  rcases outgoing_payments outgoing with ⟨order, held, event⟩
  have kind : post.event.type = "PaymentCaptured" ∨ post.event.type = "PaymentDeclined" := by
    rw [event]
    exact (Fulfilment.charge order).type_event
  have paid : ∀ orderId, ((state.markOut .payments).post post).paid orderId =
      state.paid orderId + if order.orderId = orderId then 1 else 0 := fun orderId => by
    rw [paid_charge event]
    rfl
  have placed : ∀ orderId, ((state.markOut .payments).post post).times "OrderPlaced" orderId =
      state.times "OrderPlaced" orderId := by
    intro orderId
    rw [times_post, Event.counts]
    rcases kind with kind | kind <;> simp [kind, times]
  have queued : ∀ orderId, ((state.markOut .payments).post post).waiting .payments orderId =
      state.waiting .payments orderId := by
    intro orderId
    rw [waiting_post _ orderId (Event.routed_topology post.event .payments), Event.counts]
    rcases kind with kind | kind <;> simp [kind, waiting]
  have now : ((state.markOut .payments).post post).paying =
      some ⟨order, post.correlation, .publish true⟩ := by
    simp [Services.post, markOut, held]
  have other : ∀ orderId await, order.orderId ≠ orderId → ¬state.Awaiting orderId await := by
    rintro orderId await different ⟨paying, holding, about, -⟩
    rw [held] at holding
    cases holding
    exact different about
  constructor
  · intro orderId announced
    rw [placed] at announced
    rw [paid, queued]
    by_cases mine : order.orderId = orderId
    · exact .inl (by simp [mine])
    · rcases attended.coming orderId announced with paid | waiting | claims | publishes
      · exact .inl (Nat.lt_add_right _ paid)
      · exact .inr (.inl waiting)
      · exact absurd claims (other orderId _ mine)
      · exact absurd publishes (other orderId _ mine)
  · intro orderId mark
    rw [paid]
    by_cases mine : order.orderId = orderId
    · exact .inl (by simp [mine])
    · exact .inl (Nat.lt_add_right _
        ((attended.marked orderId mark).resolve_right (other orderId _ mine)))
  · intro paying holding isOut
    rw [now] at holding
    cases holding
    rw [paid]
    simp

private theorem publish (attended : Attended state) {service : Queue} {post : Post}
    (outgoing : state.outgoing service = some post) :
    Attended ((state.markOut service).post post) := by
  by_cases mine : service = .payments
  · subst mine
    exact attended.charge outgoing
  · have kind : post.event.type ∉ ["OrderPlaced", "PaymentCaptured", "PaymentDeclined"] := by
      cases service with
      | payments => exact absurd rfl mine
      | inventory =>
          rcases outgoing_inventory outgoing with ⟨outcome, -, event⟩
          rw [event]
          rcases outcome.type_event with kind | kind <;> simp [kind]
      | shipping =>
          rcases outgoing_shipping outgoing with ⟨shipment, -, event⟩
          rw [event]
          simp [Event.type]
      | notifications => cases outgoing
    simp only [List.mem_cons, List.not_mem_nil, or_false, not_or] at kind
    rcases kind with ⟨unplaced, uncaptured, undeclined⟩
    have marked : (state.markOut service).charged = state.charged ∧
        (state.markOut service).paying = state.paying := by
      cases service with
      | payments => exact absurd rfl mine
      | inventory => exact ⟨rfl, rfl⟩
      | shipping => exact ⟨rfl, rfl⟩
      | notifications => exact ⟨rfl, rfl⟩
    apply attended.of_same
    · intro orderId
      rw [times_post, Event.counts]
      simp [unplaced, times]
    · intro orderId
      rw [paid_post (by simp [uncaptured, undeclined])]
      simp [paid, times]
    · intro orderId
      rw [waiting_post _ orderId (Event.routed_topology post.event .payments), Event.counts]
      simp [unplaced, waiting]
    · exact marked.1
    · exact marked.2

private theorem sent (attended : Attended state) (enabled : state.Enabled (.sent .payments)) :
    Attended (state.perform terms (.sent .payments)) := by
  have awaits : state.awaits = some (.publish true) := by simpa [Enabled, isOut] using enabled
  rcases Option.map_eq_some_iff.mp awaits with ⟨paying, held, waits⟩
  have free : ∀ orderId await, await ≠ .publish true → ¬state.Awaiting orderId await := by
    rintro orderId await other ⟨holder, same, -, awaiting⟩
    rw [held] at same
    cases same
    exact other (awaiting.symm.trans waits)
  simp only [perform, held]
  exact {
    coming := by
      intro orderId announced
      rcases attended.coming orderId announced with paid | waiting | claims | publishes
      · exact .inl paid
      · exact .inr (.inl waiting)
      · exact absurd claims (free orderId _ (by decide))
      · exact absurd publishes (free orderId _ (by decide))
    marked := fun orderId mark =>
      .inl ((attended.marked orderId mark).resolve_right (free orderId _ (by decide)))
    out := by
      intro other holding _
      cases holding
      exact attended.out paying held (by rw [waits]; rfl) }

private theorem step {step : ServicesStep} (attended : Attended state) (honest : Honest state)
    (enabled : state.Enabled step) : Attended (state.perform terms step) := by
  cases step with
  | place order => exact attended.of_same (fun _ => rfl) (fun _ => le_rfl) (fun _ => rfl) rfl rfl
  | withStock sku quantity =>
      exact attended.of_same (fun _ => rfl) (fun _ => le_rfl) (fun _ => rfl) rfl rfl
  | withFlakyWarehouse count =>
      exact attended.of_same (fun _ => rfl) (fun _ => le_rfl) (fun _ => rfl) rfl rfl
  | pass duration =>
      exact attended.of_same (fun _ => rfl) (fun _ => le_rfl) (fun _ => rfl) rfl rfl
  | relay order => exact attended.relay order
  | retry message =>
      have elsewhere : Queue.payments ≠ .inventory := by decide
      refine attended.of_same (fun _ => rfl) (fun _ => le_rfl) (fun orderId => ?_) rfl rfl
      simp [waiting, perform, elsewhere]
  | publish service =>
      rcases Option.isSome_iff_exists.mp enabled with ⟨post, outgoing⟩
      simp only [perform, outgoing]
      exact attended.publish outgoing
  | take queue =>
      rcases List.exists_cons_of_ne_nil enabled.2 with ⟨message, rest, waits⟩
      simp only [perform, waits]
      by_cases mine : queue = .payments
      · subst mine
        rcases Event.placed_of_routed (honest.pop waits).1.2 with ⟨order, event⟩
        rw [handle_placed event]
        exact attended.take waits (by simpa [busy] using enabled.1) event
      · apply attended.of_same
        · intro orderId
          simp only [times, handle_published]
        · intro orderId
          simp only [paid, times, handle_published]
          exact le_rfl
        · intro orderId
          have elsewhere : Queue.payments ≠ queue := fun same => mine same.symm
          simp [waiting, elsewhere]
        · exact handle_charged ..
        · exact handle_paying _ _ _ mine
  | claim => exact attended.claim enabled
  | confirm => exact attended.confirm enabled
  | sent service =>
      cases service with
      | payments => exact attended.sent enabled
      | inventory =>
          simp only [perform]
          split
          · exact attended
          · exact attended.of_same (fun _ => rfl) (fun _ => le_rfl) (fun _ => rfl) rfl rfl
      | shipping =>
          exact attended.of_same (fun _ => rfl) (fun _ => le_rfl) (fun _ => rfl) rfl rfl
      | notifications => exact attended

theorem of_reached {Allowed : Services → ServicesStep → Prop}
    (reached : (services terms).Reached Allowed state) : Attended state :=
  reached.invariant_using Honest Attended (fun _ => Honest.of_reached)
    (fun _ first => by cases first; exact initial)
    fun _ _ honest attended _ enabled => attended.step honest enabled

end Attended

/-! ## At rest -/

namespace AtRest

private theorem waiting (rest : AtRest state) (queue : Queue) (orderId : String) :
    state.waiting queue orderId = 0 := by
  simp [Services.waiting, rest.empty queue]

theorem pending (rest : AtRest state) (queue : Queue) (orderId : String) :
    state.pending queue orderId = 0 := pending_of_idle orderId (rest.idle queue)

private theorem unclaimed (rest : AtRest state) (orderId : String) (await : Await) :
    ¬state.Awaiting orderId await := by
  rintro ⟨paying, held, -⟩
  have idle := rest.idle .payments
  simp [busy, held] at idle

theorem recorded (rest : AtRest state) (recording : Recording state) :
    state.recorded = state.published := by
  have complete := recording.complete
  rw [rest.empty, List.map_nil, List.append_nil] at complete
  exact complete

end AtRest

def givenUp (state : Services) (orderId : String) : Nat :=
  howMany (Carried.isAbout orderId) state.deadLetters

/-- The outcome of a payment has followed the order, and all that follows from it. -/
theorem decided_at_rest (rest : AtRest state) (attended : Attended state)
    (charged : ChargedOnce state) (balanced : Balanced orderId state)
    (announced : 0 < state.times "OrderPlaced" orderId) :
    state.times "PaymentDeclined" orderId = 1 ∧ state.givenUp orderId = 0 ∨
    state.times "PaymentCaptured" orderId = 1 ∧ state.times "PaymentDeclined" orderId = 0 ∧
      (state.givenUp orderId = 1 ∧ state.times "StockReserved" orderId = 0 ∧
          state.times "StockUnavailable" orderId = 0 ∨
        state.givenUp orderId = 0 ∧ state.times "StockUnavailable" orderId = 1 ∨
        state.givenUp orderId = 0 ∧ state.times "OrderShipped" orderId = 1) := by
  have outcome : 0 < state.paid orderId := by
    rcases attended.coming orderId announced with paid | waiting | claims | publishes
    · exact paid
    · exact absurd waiting (by simp [rest.waiting])
    · exact absurd claims (rest.unclaimed orderId _)
    · exact absurd publishes (rest.unclaimed orderId _)
  have once := charged.once orderId
  have decided := balanced.decided
  have shipped := balanced.shipped
  rw [undecided, rest.waiting, rest.unladdered, rest.pending, howMany_zero] at decided
  rw [unshipped, rest.waiting, rest.pending] at shipped
  rw [paid] at outcome once
  rw [givenUp]
  omega

end Services

/-! ## What a whole story ends with -/

private theorem Tells.whole {types : List String} (tells : Tells types) :
    ("PaymentDeclined" ∈ types ∨ "StockUnavailable" ∈ types ∨ "OrderShipped" ∈ types →
      withoutRepeats types ∈ stories) ∧
    ("PaymentCaptured" ∈ types ∧ "StockReserved" ∉ types ∧ "StockUnavailable" ∉ types →
      withoutRepeats types = ["OrderPlaced", "PaymentCaptured"]) := by
  by_cases nonempty : types = []
  · subst nonempty
    simp
  · have listed : ∀ type, type ≠ "OrderPlaced" → (type ∈ withoutRepeats types ↔ type ∈ types) :=
      fun type other => mem_withoutRepeats other
    have declined := listed "PaymentDeclined" (by decide)
    have unavailable := listed "StockUnavailable" (by decide)
    have shipped := listed "OrderShipped" (by decide)
    have captured := listed "PaymentCaptured" (by decide)
    have reserved := listed "StockReserved" (by decide)
    rw [← declined, ← unavailable, ← shipped, ← captured, ← reserved]
    rcases tells.cases nonempty with told | told | told | told | told | told <;>
      simp [told, stories]

/-! ## Every order -/

def ServicesStep.announces (orderId : String) : ServicesStep → Bool
  | relay order => order.orderId == orderId
  | _ => false

private theorem Event.placed_counts (order : OrderPlaced) (orderId : String) :
    (Event.placed order).counts "OrderPlaced" orderId = (order.orderId == orderId).toNat := by
  by_cases same : order.orderId = orderId
  · simp [Event.counts, Event.type, Event.orderId, same]
  · have differ : (order.orderId == orderId) = false := beq_false_of_ne same
    simp [Event.counts, Event.orderId, same, differ]

private theorem Services.times_placed_publish {state : Services} {service : Queue} {post : Post}
    (outgoing : state.outgoing service = some post) (orderId : String) :
    ((state.markOut service).post post).times "OrderPlaced" orderId =
      state.times "OrderPlaced" orderId := by
  have other : post.event.type ≠ "OrderPlaced" := by
    cases service with
    | payments =>
        rcases outgoing_payments outgoing with ⟨order, -, event⟩
        rw [event]
        rcases (charge order).type_event with kind | kind <;> simp [kind]
    | inventory =>
        rcases outgoing_inventory outgoing with ⟨outcome, -, event⟩
        rw [event]
        rcases outcome.type_event with kind | kind <;> simp [kind]
    | shipping =>
        rcases outgoing_shipping outgoing with ⟨shipment, -, event⟩
        rw [event]
        simp [Event.type]
    | notifications => cases outgoing
  rw [times_post, Event.counts]
  simp [other, times]

theorem Services.times_placed_step {terms : Lease.Terms Nat} {state : Services}
    {step : ServicesStep} (enabled : state.Enabled step) (orderId : String) :
    (state.perform terms step).times "OrderPlaced" orderId =
      state.times "OrderPlaced" orderId + (step.announces orderId).toNat := by
  cases step with
  | relay order =>
      rw [ServicesStep.announces, ← Event.placed_counts]
      exact times_post _ _
  | publish service =>
      rcases Option.isSome_iff_exists.mp enabled with ⟨post, outgoing⟩
      simp only [perform, outgoing]
      exact times_placed_publish outgoing orderId
  | take queue =>
      rcases List.exists_cons_of_ne_nil enabled.2 with ⟨message, rest, waiting⟩
      simp only [perform, waiting, times, handle_published]
      rfl
  | retry message => rfl
  | _ =>
      simp only [times, (quiet terms enabled id).published]
      rfl

theorem times_placed_of_ran {terms : Lease.Terms Nat} {Allowed : Services → ServicesStep → Prop}
    {actions : List ServicesStep} {state : Services}
    (ran : (services terms).Ran Allowed actions state) (orderId : String) :
    state.times "OrderPlaced" orderId = actions.countP (ServicesStep.announces orderId) := by
  apply ran.invariant fun actions state =>
    state.times "OrderPlaced" orderId = actions.countP (ServicesStep.announces orderId)
  · rintro _ rfl
    rfl
  · intro actions state step _ counted _ enabled
    rw [countP_concat, ← counted]
    exact Services.times_placed_step enabled orderId

private theorem timelineOf_at_rest {terms : Lease.Terms Nat} {state : Services}
    (reached : (services terms).Reached (WithinRetention terms) state) (rest : state.AtRest)
    (orderId : String) : state.timelineOf orderId = typesOf state.published orderId := by
  have recording : state.Recording := .of_reached reached
  rw [Services.timelineOf_eq (.of_reached reached) recording, rest.recorded recording]

/-- And the timeline of an order that was announced tells a whole story, but for a payment that
was given up. -/
theorem told_at_rest {terms : Lease.Terms Nat} {state : Services}
    (reached : (services terms).Reached (WithinRetention terms) state) (rest : state.AtRest)
    {orderId : String} (announced : 0 < state.times "OrderPlaced" orderId) :
    state.givenUp orderId = 0 ∧ withoutRepeats (state.timelineOf orderId) ∈ stories ∨
      state.givenUp orderId = 1 ∧
        withoutRepeats (state.timelineOf orderId) = ["OrderPlaced", "PaymentCaptured"] := by
  have told : Services.ToldInOrder state := .of_reached reached
  have shown := timelineOf_at_rest reached rest orderId
  have tells := told orderId
  rw [← shown] at tells
  have listed : ∀ type, type ∈ state.timelineOf orderId ↔ 0 < state.times type orderId := by
    intro type
    rw [shown, Services.times, List.count_pos_iff]
  rcases Services.decided_at_rest rest (.of_reached reached) (.of_reached reached)
      (.of_reached orderId reached) announced with
    ⟨declined, kept⟩ | ⟨captured, -, ⟨givenUp, unreserved, available⟩ | ⟨kept, refused⟩ |
      ⟨kept, shipped⟩⟩
  · exact .inl ⟨kept, tells.whole.1 (.inl ((listed _).mpr (by omega)))⟩
  · refine .inr ⟨givenUp, tells.whole.2 ⟨(listed _).mpr (by omega), ?_, ?_⟩⟩
    · rw [listed]
      omega
    · rw [listed]
      omega
  · exact .inl ⟨kept, tells.whole.1 (.inr (.inl ((listed _).mpr (by omega))))⟩
  · exact .inl ⟨kept, tells.whole.1 (.inr (.inr ((listed _).mpr (by omega))))⟩

/-- When the services have come to rest, the timeline of an order that was announced tells
a whole story, or its payment is the one message of it that was given up; an order that was
not announced has no timeline. -/
theorem told_to_the_end {terms : Lease.Terms Nat} {actions : List ServicesStep}
    {state : Services} (ran : (services terms).Ran (WithinRetention terms) actions state)
    (rest : state.AtRest) (orderId : String) :
    (actions.countP (ServicesStep.announces orderId) = 0 → state.timelineOf orderId = []) ∧
    (0 < actions.countP (ServicesStep.announces orderId) →
      (state.timelineOf orderId).count "OrderPlaced" =
          actions.countP (ServicesStep.announces orderId) ∧
        (state.givenUp orderId = 0 ∧ withoutRepeats (state.timelineOf orderId) ∈ stories ∨
          state.givenUp orderId = 1 ∧
            withoutRepeats (state.timelineOf orderId) =
              ["OrderPlaced", "PaymentCaptured"])) := by
  have shown := timelineOf_at_rest ran.reached rest orderId
  have counted : (state.timelineOf orderId).count "OrderPlaced" =
      actions.countP (ServicesStep.announces orderId) := by
    rw [shown]
    exact times_placed_of_ran ran orderId
  constructor
  · intro silent
    have told : Services.ToldInOrder state := .of_reached ran.reached
    have tells := told orderId
    rw [← shown] at tells
    rw [silent, List.count_eq_zero] at counted
    by_contra nonempty
    exact counted (List.mem_of_mem_head? (tells.1 nonempty))
  · intro announced
    rw [← times_placed_of_ran ran orderId] at announced
    exact ⟨counted, told_at_rest ran.reached rest announced⟩

def paidFor (order : OrderPlaced) : List ServicesStep :=
  [.place order, .relay order, .take .payments, .claim, .publish .payments, .sent .payments,
    .confirm, .take .notifications, .take .notifications]

def again (attempt : Nat) : ServicesStep :=
  .retry ⟨⟨.captured ⟨"order-1", "ada", "WIDGET", 1, 25⟩, "order-1"⟩, attempt⟩

/-- The warehouse fails all four calls for an order, and its payment is given up. -/
theorem given_up_at_rest : ∃ state : Services,
    (state.timelineOf "order-1").count "OrderPlaced" = 1 ∧ state.givenUp "order-1" = 1 ∧
      withoutRepeats (state.timelineOf "order-1") = ["OrderPlaced", "PaymentCaptured"] := by
  have ran := TransitionSystem.Ran.of_isSome_run (services chargedTerms)
    (WithinRetention chargedTerms) rfl
    ([.withStock "WIDGET" 5, .withFlakyWarehouse 4] ++ paidFor widget.order ++
      [.take .inventory, again 2, .take .inventory, again 3, .take .inventory, again 4,
        .take .inventory])
    (by decide +kernel)
  rcases (told_to_the_end ran (by decide +kernel) "order-1").2 (by decide +kernel) with
    ⟨announced, kept | givenUp⟩
  · exact absurd kept.1 (by decide +kernel)
  · exact ⟨_, announced, givenUp⟩

/-- A warehouse that fails no more than so many of its calls costs a quarter as many orders,
all of which it has failed four times: one that fails fewer than four calls costs none, and
when the services have come to rest every announced order is told of to its end. -/
theorem retried_rather_than_failed {terms : Lease.Terms Nat} {limit : Nat}
    {actions : List ServicesStep} {state : Services}
    (ran : (services terms).Ran
      (fun state step => WithinRetention terms state step ∧ FlakyUpTo limit state step)
      actions state) :
    4 * state.deadLetters.card ≤ limit ∧
      (∀ message ∈ state.deadLetters, message.attempt = retryAttempts) ∧
      (limit < 4 → state.AtRest → ∀ orderId,
        0 < actions.countP (ServicesStep.announces orderId) →
          withoutRepeats (state.timelineOf orderId) ∈ stories) := by
  have spared : Services.Spared limit state :=
    .of_reached (ran.reached.mono fun _ _ allowed => allowed.2)
  have bound : 4 * state.deadLetters.card ≤ limit := by
    have failed := spared.simulated
    rw [Services.failures, Services.attempts_deadLetters spared] at failed
    omega
  refine ⟨bound, spared.givenUp, ?_⟩
  intro few rest orderId announced
  have none : state.deadLetters = 0 := Multiset.card_eq_zero.mp (by omega)
  rw [← times_placed_of_ran ran orderId] at announced
  rcases told_at_rest (ran.mono fun _ _ allowed => allowed.1).reached rest announced with
    ⟨-, whole⟩ | ⟨givenUp, -⟩
  · exact whole
  · rw [Services.givenUp, none] at givenUp
    cases givenUp

/-- The warehouse fails twice, and the order is shipped all the same. -/
theorem shipped_after_two_failures : ∃ state : Services,
    4 * state.deadLetters.card ≤ 2 ∧ withoutRepeats (state.timelineOf "order-1") ∈ stories := by
  have ran := TransitionSystem.Ran.of_isSome_run (services chargedTerms)
    (fun state step => WithinRetention chargedTerms state step ∧ FlakyUpTo 2 state step) rfl
    ([.withStock "WIDGET" 5, .withFlakyWarehouse 2] ++ paidFor widget.order ++
      [.take .inventory, again 2, .take .inventory, again 3] ++ handling .inventory ++
        handling .shipping ++ List.replicate 2 (.take .notifications))
    (by decide +kernel)
  have told := retried_rather_than_failed ran
  exact ⟨_, told.1, told.2.2 (by decide) (by decide +kernel) "order-1" (by decide +kernel)⟩

end AmqpApps.Fulfilment
