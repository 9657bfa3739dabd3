import AmqpApps.Foundation.Runs
import AmqpApps.Fulfilment.Timeline

/-! # Each service by itself

Payments, inventory and shipping have models of their own, in which handlers run side by side,
publishes raise and instances die. Among the five services each of them runs as it may there.
-/

namespace AmqpApps.Fulfilment

def Carried.delivery? (message : Carried) : Option Delivery :=
  match message.post.event with
  | .placed order => some ⟨order, message.post.correlation, message.attempt⟩
  | _ => none

def Post.payment? (post : Post) : Option PublishedPayment :=
  match post.event with
  | .captured event => some ⟨.captured event, post.correlation⟩
  | .declined event => some ⟨.declined event, post.correlation⟩
  | _ => none

def Post.stock? (post : Post) : Option PublishedStock :=
  match post.event with
  | .reserved event => some ⟨.reserved event, post.correlation⟩
  | .unavailable event => some ⟨.unavailable event, post.correlation⟩
  | _ => none

def Post.shipment? (post : Post) : Option PublishedShipment :=
  match post.event with
  | .shipped event => some ⟨event, post.correlation⟩
  | _ => none

def Paying.handler (attempt : Nat) (paying : Paying) : Handler :=
  ⟨0, ⟨paying.order, paying.correlation, attempt⟩, paying.await⟩

namespace Services

def deliveries (state : Services) : List Delivery :=
  (state.queues .payments).filterMap Carried.delivery?

private theorem deliveries_post (state : Services) (post : Post) :
    (state.post post).deliveries =
      state.deliveries ++ (Carried.delivery? ⟨post, 1⟩).toList := by
  rcases post with ⟨event, correlation⟩
  have bound := event.routed_topology .payments
  simp only [deliveries, Services.post, route]
  cases event with
  | placed order =>
      rw [if_pos (bound.mpr rfl), List.filterMap_append]
      rfl
  | _ =>
      rw [if_neg (fun routed => absurd (bound.mp routed) (by simp [Event.type]))]
      exact (List.append_nil _).symm

/-! What a message that comes back, and another service's handler, leave alone. -/

section Untouched

variable (state : Services) (message : Carried)

@[simp] theorem retryLater_clock : (state.retryLater message).clock = state.clock := by
  unfold retryLater
  split <;> rfl

@[simp] theorem retryLater_payments :
    (state.retryLater message).payments = state.payments := by
  unfold retryLater
  split <;> rfl

@[simp] theorem retryLater_inventory :
    (state.retryLater message).inventory = state.inventory := by
  unfold retryLater
  split <;> rfl

@[simp] theorem retryLater_reserving :
    (state.retryLater message).reserving = state.reserving := by
  unfold retryLater
  split <;> rfl

@[simp] theorem retryLater_shipping :
    (state.retryLater message).shipping = state.shipping := by
  unfold retryLater
  split <;> rfl

@[simp] theorem retryLater_dispatching :
    (state.retryLater message).dispatching = state.dispatching := by
  unfold retryLater
  split <;> rfl

variable {queue : Queue}

private theorem handle_payments (other : queue ≠ .payments) :
    (state.handle message queue).clock = state.clock ∧
      (state.handle message queue).payments = state.payments := by
  cases queue <;> simp only [handle] <;> repeat' split
  all_goals simp at other ⊢

private theorem handle_inventory (other : queue ≠ .inventory) :
    (state.handle message queue).inventory = state.inventory ∧
      (state.handle message queue).reserving = state.reserving := by
  cases queue <;> simp only [handle] <;> repeat' split
  all_goals simp at other ⊢

private theorem handle_shipping (other : queue ≠ .shipping) :
    (state.handle message queue).shipping = state.shipping ∧
      (state.handle message queue).dispatching = state.dispatching := by
  cases queue <;> simp only [handle] <;> repeat' split
  all_goals simp at other ⊢

end Untouched

end Services

/-! ## Payments -/

/-- Payments, matched with the first instance of its fleet. -/
structure PaysAs (state : Services) (own : Payments) : Prop where
  clock : own.clock = state.clock
  store : own.store = state.charged
  queue : own.queue = Multiset.ofList state.deliveries
  handlers : ∃ attempt,
    own.handlers = Multiset.ofList (state.paying.toList.map (Paying.handler attempt))
  published : own.published = state.published.filterMap Post.payment?
  service : own.services 0 = state.payments

namespace PaysAs

variable {terms : Lease.Terms Nat} {state : Services} {own : Payments}

private theorem same (pays : PaysAs state own) {next : Services} (clock : next.clock = state.clock)
    (charged : next.charged = state.charged) (deliveries : next.deliveries = state.deliveries)
    (paying : next.paying = state.paying)
    (published : next.published.filterMap Post.payment? =
      state.published.filterMap Post.payment?) (payments : next.payments = state.payments) :
    PaysAs next own where
  clock := pays.clock.trans clock.symm
  store := pays.store.trans charged.symm
  queue := by rw [deliveries, pays.queue]
  handlers := by rw [paying]; exact pays.handlers
  published := pays.published.trans published.symm
  service := pays.service.trans payments.symm

private theorem post (pays : PaysAs state own) {post : Post}
    (noDelivery : Carried.delivery? ⟨post, 1⟩ = none) (noPayment : post.payment? = none) :
    PaysAs (state.post post) own := by
  refine pays.same rfl rfl ?_ rfl ?_ rfl
  · rw [Services.deliveries_post, noDelivery]
    exact List.append_nil _
  · simp [Services.post, noPayment]

private theorem take (terms : Lease.Terms Nat) (pays : PaysAs state own) {message : Carried}
    {rest : List Carried} (waiting : state.queues .payments = message :: rest)
    (idle : state.paying = none) :
    ∃ more next, (payments terms).Leads TransitionSystem.anyStep own more next ∧
      PaysAs (Services.handle
        { state with queues := Function.update state.queues .payments rest } message .payments)
        next := by
  have left : state.deliveries = message.delivery?.toList ++ rest.filterMap Carried.delivery? := by
    rw [Services.deliveries, waiting, List.filterMap_cons]
    cases message.delivery? <;> rfl
  rcases pays with ⟨clock, store, queue, ⟨attempt, handlers⟩, published, service⟩
  rw [idle] at handlers
  rw [left] at queue
  cases event : message.post.event with
  | placed order =>
      let delivery : Delivery := ⟨order, message.post.correlation, message.attempt⟩
      have mine : message.delivery? = some delivery := by simp [Carried.delivery?, event, delivery]
      rw [mine] at queue
      rw [Services.handle_placed event]
      refine ⟨[.deliver delivery 0], _, .go trivial ?_ .stay, clock, store, ?_,
        ⟨message.attempt, ?_⟩, published, service⟩
      · change delivery ∈ own.queue
        rw [queue]
        exact Multiset.mem_coe.mpr List.mem_cons_self
      · simp only [payments, Payments.perform, queue, Services.deliveries,
          Function.update_self, Option.toList_some, List.singleton_append, ← Multiset.cons_coe,
          Multiset.erase_cons_head]
      · simp only [payments, Payments.perform, handlers]
        rfl
  | _ =>
      have nothing : message.delivery? = none := by simp [Carried.delivery?, event]
      rw [nothing] at queue
      refine ⟨[], own, .stay, ?_⟩
      simp only [Services.handle, event]
      have kept : PaysAs { state with queues := Function.update state.queues .payments rest }
          own := by
        refine ⟨clock, store, ?_, ⟨attempt, ?_⟩, published, service⟩
        · rw [queue, Services.deliveries]
          simp
        · rw [handlers, idle]
      apply kept.same <;> simp [Services.deliveries]

private theorem handler (pays : PaysAs state own) {paying : Paying}
    (held : state.paying = some paying) :
    ∃ attempt, own.handlers = {paying.handler attempt} := by
  rcases pays.handlers with ⟨attempt, handlers⟩
  rw [held] at handlers
  exact ⟨attempt, handlers⟩

private theorem goOn_only (own : Payments) {handler : Handler} (only : own.handlers = {handler})
    (await : Await) :
    own.goOn handler await = { own with handlers := {{ handler with await }} } := by
  rw [Payments.goOn, only, ← Multiset.cons_zero, Multiset.erase_cons_head, Multiset.cons_zero]

private theorem claim (terms : Lease.Terms Nat) (pays : PaysAs state own) {order : OrderPlaced}
    {correlation : String} (held : state.paying = some ⟨order, correlation, .claim⟩) :
    ∃ more next, (payments terms).Leads TransitionSystem.anyStep own more next ∧
      PaysAs (state.perform terms .claim) next := by
  rcases pays.handler held with ⟨attempt, only⟩
  let handler (await : Await) : Handler := Paying.handler attempt ⟨order, correlation, await⟩
  have mine : handler .claim ∈ own.handlers := only ▸ Multiset.mem_singleton_self _
  have same : Lease.firstTime terms own.store own.clock (handler .claim).orderId =
      Lease.firstTime terms state.charged state.clock order.orderId := by
    rw [pays.store, pays.clock]
    rfl
  cases first : (Lease.firstTime terms state.charged state.clock order.orderId).1 with
  | true =>
      have moved : (payments terms).perform own (.claim (handler .claim)) =
          { own with
            store := (Lease.firstTime terms state.charged state.clock order.orderId).2
            handlers := {handler (.publish false)} } := by
        simp only [payments, Payments.perform, same, first, if_true]
        exact goOn_only { own with
          store := (Lease.firstTime terms state.charged state.clock order.orderId).2 } only _
      refine ⟨[.claim (handler .claim)], _, .go trivial ⟨mine, rfl⟩ .stay, ?_⟩
      rw [moved]
      simp only [Services.perform, held, first, if_true]
      exact ⟨pays.clock, rfl, pays.queue, ⟨attempt, rfl⟩, pays.published, pays.service⟩
  | false =>
      have moved : (payments terms).perform own (.claim (handler .claim)) =
          { own with
            services := Function.update own.services 0 (own.services 0).refuse
            handlers := {handler .acknowledgement} } := by
        simp only [payments, Payments.perform, same, first, Bool.false_eq_true, if_false]
        exact goOn_only (own.serviceDid 0 .refuse) only _
      refine ⟨[.claim (handler .claim), .acknowledge (handler .acknowledgement)], _,
        .go trivial ⟨mine, rfl⟩ (.go trivial ⟨?_, rfl⟩ .stay), ?_⟩
      · rw [moved]
        exact Multiset.mem_singleton_self _
      · rw [moved]
        simp only [Services.perform, held, first, Bool.false_eq_true, if_false]
        refine ⟨pays.clock, pays.store, pays.queue, ⟨attempt, ?_⟩, pays.published, ?_⟩
        · exact Multiset.erase_singleton _
        · simp only [payments, Payments.perform, Function.update_self, pays.service]

private theorem confirm (terms : Lease.Terms Nat) (pays : PaysAs state own) {order : OrderPlaced}
    {correlation : String} (held : state.paying = some ⟨order, correlation, .confirmation⟩) :
    ∃ more next, (payments terms).Leads TransitionSystem.anyStep own more next ∧
      PaysAs (state.perform terms .confirm) next := by
  rcases pays.handler held with ⟨attempt, only⟩
  let handler (await : Await) : Handler := Paying.handler attempt ⟨order, correlation, await⟩
  have mine : handler .confirmation ∈ own.handlers := only ▸ Multiset.mem_singleton_self _
  have moved : (payments terms).perform own (.confirm (handler .confirmation)) =
      { own with
        store := Lease.confirm own.store own.clock order.orderId
        handlers := {handler .acknowledgement} } :=
    goOn_only { own with store := Lease.confirm own.store own.clock order.orderId } only _
  refine ⟨[.confirm (handler .confirmation), .acknowledge (handler .acknowledgement)], _,
    .go trivial ⟨mine, rfl⟩ (.go trivial ⟨?_, rfl⟩ .stay), ?_⟩
  · rw [moved]
    exact Multiset.mem_singleton_self _
  · rw [moved]
    simp only [Services.perform, held]
    refine ⟨pays.clock, ?_, pays.queue, ⟨attempt, ?_⟩, pays.published, pays.service⟩
    · simp only [payments, Payments.perform, pays.store, pays.clock]
    · exact Multiset.erase_singleton _

private theorem publish (terms : Lease.Terms Nat) (pays : PaysAs state own) {order : OrderPlaced}
    {correlation : String} (held : state.paying = some ⟨order, correlation, .publish false⟩) :
    ∃ more next, (payments terms).Leads TransitionSystem.anyStep own more next ∧
      PaysAs (state.perform terms (.publish .payments)) next := by
  rcases pays.handler held with ⟨attempt, only⟩
  let handler (await : Await) : Handler := Paying.handler attempt ⟨order, correlation, await⟩
  have mine : handler (.publish false) ∈ own.handlers := only ▸ Multiset.mem_singleton_self _
  have moved : (payments terms).perform own (.publish (handler (.publish false))) =
      { own with
        published := own.published ++ [⟨charge order, correlation⟩]
        handlers := {handler (.publish true)} } :=
    goOn_only { own with
      published := own.published ++ [⟨charge order, correlation⟩] } only _
  refine ⟨[.publish (handler (.publish false))], _, .go trivial ⟨mine, rfl⟩ .stay, ?_⟩
  rw [moved]
  have outgoing : state.outgoing .payments = some ⟨(charge order).event, correlation⟩ := by
    rw [Services.outgoing, held]
  simp only [Services.perform, outgoing]
  have delivers : Carried.delivery? ⟨⟨(charge order).event, correlation⟩, 1⟩ = none := by
    cases charge order <;> rfl
  have pays? : Post.payment? ⟨(charge order).event, correlation⟩ =
      some ⟨charge order, correlation⟩ := by
    cases charge order <;> rfl
  refine ⟨pays.clock, pays.store, ?_, ⟨attempt, ?_⟩, ?_, pays.service⟩
  · rw [Services.deliveries_post, delivers, pays.queue]
    exact congrArg Multiset.ofList (List.append_nil _).symm
  · simp only [Services.post, Services.markOut, held]
    rfl
  · simp only [Services.post, Services.markOut, List.filterMap_append, pays.published,
      List.filterMap_cons, pays?, List.filterMap_nil]

private theorem sent (terms : Lease.Terms Nat) (pays : PaysAs state own) {order : OrderPlaced}
    {correlation : String} (held : state.paying = some ⟨order, correlation, .publish true⟩) :
    ∃ more next, (payments terms).Leads TransitionSystem.anyStep own more next ∧
      PaysAs (state.perform terms (.sent .payments)) next := by
  rcases pays.handler held with ⟨attempt, only⟩
  let handler (await : Await) : Handler := Paying.handler attempt ⟨order, correlation, await⟩
  have mine : handler (.publish true) ∈ own.handlers := only ▸ Multiset.mem_singleton_self _
  have moved : (payments terms).perform own (.sent (handler (.publish true))) =
      { own with
        services := Function.update own.services 0 ((own.services 0).sent (charge order))
        handlers := {handler .confirmation} } :=
    goOn_only (own.serviceDid 0 fun service => service.sent (charge order)) only _
  refine ⟨[.sent (handler (.publish true))], _, .go trivial ⟨mine, rfl⟩ .stay, ?_⟩
  rw [moved]
  simp only [Services.perform, held]
  refine ⟨pays.clock, pays.store, pays.queue, ⟨attempt, rfl⟩, pays.published, ?_⟩
  simp only [Function.update_self, pays.service]

private theorem step (pays : PaysAs state own) {step : ServicesStep}
    (enabled : state.Enabled step) :
    ∃ more next, (payments terms).Leads TransitionSystem.anyStep own more next ∧
      PaysAs (state.perform terms step) next := by
  have stays : ∀ {next : Services}, PaysAs next own →
      ∃ more last, (payments terms).Leads TransitionSystem.anyStep own more last ∧
        PaysAs next last := fun like => ⟨[], own, .stay, like⟩
  cases step with
  | place order => exact stays (pays.same rfl rfl rfl rfl rfl rfl)
  | withStock sku quantity => exact stays (pays.same rfl rfl rfl rfl rfl rfl)
  | withFlakyWarehouse count => exact stays (pays.same rfl rfl rfl rfl rfl rfl)
  | relay order =>
      refine ⟨[.place order order.orderId], _, .go trivial trivial .stay, pays.clock, pays.store,
        ?_, pays.handlers, ?_, pays.service⟩
      · rw [Services.perform, Services.deliveries_post, ← Multiset.coe_add, ← pays.queue]
        exact (Multiset.singleton_add _ _).symm.trans (add_comm _ _)
      · simp only [Services.perform, Services.post, List.filterMap_append]
        exact pays.published.trans (List.append_nil _).symm
  | pass duration =>
      exact ⟨[.pass duration], _, .go trivial trivial .stay,
        congrArg (· + duration) pays.clock, pays.store, pays.queue, pays.handlers,
        pays.published, pays.service⟩
  | take queue =>
      cases waiting : state.queues queue with
      | nil => exact absurd waiting enabled.2
      | cons message rest =>
          simp only [Services.perform, waiting]
          by_cases other : queue = .payments
          · subst other
            have free : state.paying.isSome = false := enabled.1
            exact pays.take terms waiting (by simpa using free)
          · have aside := Services.handle_payments
              { state with queues := Function.update state.queues queue rest } message other
            refine stays (pays.same aside.1 ?_ ?_ ?_ ?_ aside.2)
            · simp
            · simp [Services.deliveries, Function.update_of_ne (Ne.symm other)]
            · rw [Services.handle_paying _ _ _ other]
            · simp
  | claim =>
      have awaits : state.awaits = some .claim := enabled
      rcases Option.map_eq_some_iff.mp awaits with ⟨⟨order, correlation, await⟩, held, claims⟩
      cases claims
      exact pays.claim terms held
  | confirm =>
      have awaits : state.awaits = some .confirmation := enabled
      rcases Option.map_eq_some_iff.mp awaits with ⟨⟨order, correlation, await⟩, held, confirms⟩
      cases confirms
      exact pays.confirm terms held
  | publish service =>
      rcases Option.isSome_iff_exists.mp enabled with ⟨post, outgoing⟩
      cases service with
      | payments =>
          rcases Services.outgoing_payments outgoing with ⟨order, held, -⟩
          exact pays.publish terms held
      | inventory =>
          rcases Services.outgoing_inventory outgoing with ⟨outcome, -, event⟩
          simp only [Services.perform, outgoing]
          refine stays (PaysAs.post ?_ ?_ ?_)
          · exact pays.same rfl rfl rfl rfl rfl rfl
          · cases outcome <;> simp [Carried.delivery?, event, StockOutcome.event]
          · cases outcome <;> simp [Post.payment?, event, StockOutcome.event]
      | shipping =>
          rcases Services.outgoing_shipping outgoing with ⟨shipment, -, event⟩
          simp only [Services.perform, outgoing]
          refine stays (PaysAs.post ?_ ?_ ?_)
          · exact pays.same rfl rfl rfl rfl rfl rfl
          · simp [Carried.delivery?, event]
          · simp [Post.payment?, event]
      | notifications => cases outgoing
  | sent service =>
      cases service with
      | payments =>
          have out : state.awaits = some (.publish true) := by
            simpa [Services.Enabled, Services.isOut] using enabled
          rcases Option.map_eq_some_iff.mp out with ⟨⟨order, correlation, await⟩, held, isOut⟩
          cases isOut
          exact pays.sent terms held
      | inventory =>
          simp only [Services.perform]
          split <;> exact stays (pays.same rfl rfl rfl rfl rfl rfl)
      | shipping => exact stays (pays.same rfl rfl rfl rfl rfl rfl)
      | notifications => exact stays pays
  | retry message => exact stays (pays.same rfl rfl rfl rfl rfl rfl)

end PaysAs

/-! ## Inventory and shipping -/

def ServicesStep.of : ServicesStep → Option Queue
  | .withStock .. | .withFlakyWarehouse _ => some .inventory
  | .claim | .confirm => some .payments
  | .take service | .publish service | .sent service => some service
  | .place _ | .relay _ | .pass _ | .retry _ => none

namespace Services

variable {state : Services} {step : ServicesStep}

private theorem perform_inventory (terms : Lease.Terms Nat) (other : step.of ≠ some .inventory) :
    (state.perform terms step).inventory = state.inventory ∧
      (state.perform terms step).reserving = state.reserving := by
  cases step with
  | take queue =>
      simp only [perform]
      split
      · exact ⟨rfl, rfl⟩
      · exact handle_inventory _ _ fun same => other (congrArg some same)
  | publish service =>
      simp only [perform]
      split
      · exact ⟨rfl, rfl⟩
      · cases service <;> simp [post, markOut, ServicesStep.of] at other ⊢
  | sent service =>
      cases service <;> simp only [perform] <;> repeat' split
      all_goals simp [ServicesStep.of] at other ⊢
  | claim | confirm =>
      simp only [perform]
      repeat' split
      all_goals exact ⟨rfl, rfl⟩
  | withStock | withFlakyWarehouse => exact absurd rfl other
  | place | relay | pass | retry => exact ⟨rfl, rfl⟩

private theorem perform_shipping (terms : Lease.Terms Nat) (other : step.of ≠ some .shipping) :
    (state.perform terms step).shipping = state.shipping ∧
      (state.perform terms step).dispatching = state.dispatching := by
  cases step with
  | take queue =>
      simp only [perform]
      split
      · exact ⟨rfl, rfl⟩
      · exact handle_shipping _ _ fun same => other (congrArg some same)
  | publish service =>
      simp only [perform]
      split
      · exact ⟨rfl, rfl⟩
      · cases service <;> simp [post, markOut, ServicesStep.of] at other ⊢
  | sent service =>
      cases service <;> simp only [perform] <;> repeat' split
      all_goals simp [ServicesStep.of] at other ⊢
  | claim | confirm =>
      simp only [perform]
      repeat' split
      all_goals exact ⟨rfl, rfl⟩
  | withStock | withFlakyWarehouse | place | relay | pass | retry => exact ⟨rfl, rfl⟩

/-- Of what is of no order, a step publishes only what its service was about to publish. -/
theorem filterMap_published {α : Type} (terms : Lease.Terms Nat) (sort : Post → Option α)
    (enabled : state.Enabled step)
    (ofOrder : ∀ order correlation, sort ⟨.placed order, correlation⟩ = none)
    (ofService : ∀ service post, step.of = some service → state.outgoing service = some post →
      sort post = none) :
    (state.perform terms step).published.filterMap sort = state.published.filterMap sort := by
  by_cases touching : Touching step
  · cases step with
    | relay order => simp [perform, post, ofOrder]
    | publish service =>
        rcases Option.isSome_iff_exists.mp enabled with ⟨post, outgoing⟩
        simp [perform, outgoing, Services.post, ofService service post rfl outgoing]
    | take queue =>
        simp only [perform]
        split
        · rfl
        · rw [handle_published]
    | retry message => rfl
    | _ => exact absurd touching id
  · rw [(quiet terms enabled touching).published]

private theorem stock?_outgoing {service : Queue} {post : Post}
    (outgoing : state.outgoing service = some post) (other : service ≠ .inventory) :
    post.stock? = none := by
  cases service with
  | payments =>
      rcases outgoing_payments outgoing with ⟨order, -, event⟩
      rw [Post.stock?, event]
      cases charge order <;> rfl
  | inventory => exact absurd rfl other
  | shipping =>
      rcases outgoing_shipping outgoing with ⟨shipment, -, event⟩
      rw [Post.stock?, event]
  | notifications => cases outgoing

private theorem shipment?_outgoing {service : Queue} {post : Post}
    (outgoing : state.outgoing service = some post) (other : service ≠ .shipping) :
    post.shipment? = none := by
  cases service with
  | payments =>
      rcases outgoing_payments outgoing with ⟨order, -, event⟩
      rw [Post.shipment?, event]
      cases charge order <;> rfl
  | inventory =>
      rcases outgoing_inventory outgoing with ⟨outcome, -, event⟩
      rw [Post.shipment?, event]
      cases outcome <;> rfl
  | shipping => exact absurd rfl other
  | notifications => cases outgoing

end Services

structure StocksAs (state : Services) (own : Inventory) : Prop where
  service : own.service = state.inventory
  calls : own.calls = Multiset.ofList state.reserving.toList
  published : own.published = state.published.filterMap Post.stock?

namespace StocksAs

variable {terms : Lease.Terms Nat} {state : Services} {own : Inventory}

private theorem aside (stocks : StocksAs state own) {step : ServicesStep}
    (enabled : state.Enabled step) (other : step.of ≠ some .inventory) :
    StocksAs (state.perform terms step) own := by
  rcases Services.perform_inventory terms other with ⟨inventory, reserving⟩
  refine ⟨stocks.service.trans inventory.symm, by rw [reserving, stocks.calls], ?_⟩
  rw [stocks.published, Services.filterMap_published terms _ enabled fun _ _ => rfl]
  intro service post whose outgoing
  exact Services.stock?_outgoing outgoing fun mine => other (mine ▸ whose)

private theorem take (stocks : StocksAs state own) {message : Carried} {rest : List Carried}
    (idle : state.reserving = none) :
    ∃ more next, inventory.Leads TransitionSystem.anyStep own more next ∧
      StocksAs (Services.handle
        { state with queues := Function.update state.queues .inventory rest } message .inventory)
        next := by
  rcases stocks with ⟨service, calls, published⟩
  rw [idle] at calls
  cases event : message.post.event with
  | captured payment =>
      refine ⟨[.deliver payment message.post.correlation], _, .go trivial trivial .stay, ?_⟩
      cases ran : (state.inventory.reserve payment).2 with
      | error error =>
          simp only [inventory, Inventory.perform, Services.handle, event, service, ran]
          refine ⟨?_, ?_, ?_⟩ <;> simp [calls, published, idle]
      | ok outcome =>
          simp only [inventory, Inventory.perform, Services.handle, event, service, ran]
          exact ⟨rfl, congrArg (_ ::ₘ ·) calls, published⟩
  | _ =>
      refine ⟨[], own, .stay, ?_⟩
      simp only [Services.handle, event]
      refine ⟨?_, ?_, ?_⟩ <;> simp [service, calls, published, idle]

private theorem publish (terms : Lease.Terms Nat) (stocks : StocksAs state own)
    {outcome : StockOutcome}
    {correlation : String} (held : state.reserving = some ⟨outcome, correlation, false⟩) :
    ∃ more next, inventory.Leads TransitionSystem.anyStep own more next ∧
      StocksAs (state.perform terms (.publish .inventory)) next := by
  rcases stocks with ⟨service, calls, published⟩
  rw [held] at calls
  refine ⟨[.publish ⟨outcome, correlation, false⟩], _, .go trivial ⟨?_, rfl⟩ .stay, ?_⟩
  · rw [calls]
    exact Multiset.mem_singleton_self _
  · have outgoing : state.outgoing .inventory = some ⟨outcome.event, correlation⟩ := by
      rw [Services.outgoing, held]
    have stock : Post.stock? ⟨outcome.event, correlation⟩ = some ⟨outcome, correlation⟩ := by
      cases outcome <;> rfl
    simp only [Services.perform, outgoing]
    refine ⟨service, ?_, ?_⟩
    · simp only [inventory, Inventory.perform, Services.post, Services.markOut, held, calls]
      exact congrArg (_ ::ₘ ·) (Multiset.erase_singleton _)
    · simp [inventory, Inventory.perform, Services.post, published, stock]

private theorem sent (terms : Lease.Terms Nat) (stocks : StocksAs state own)
    {outcome : StockOutcome}
    {correlation : String} (held : state.reserving = some ⟨outcome, correlation, true⟩) :
    ∃ more next, inventory.Leads TransitionSystem.anyStep own more next ∧
      StocksAs (state.perform terms (.sent .inventory)) next := by
  rcases stocks with ⟨service, calls, published⟩
  rw [held] at calls
  refine ⟨[.sent ⟨outcome, correlation, true⟩], _, .go trivial ⟨?_, rfl⟩ .stay, ?_⟩
  · rw [calls]
    exact Multiset.mem_singleton_self _
  · simp only [Services.perform, held, inventory, Inventory.perform, calls, service]
    exact ⟨rfl, Multiset.erase_singleton _, published⟩

private theorem step (stocks : StocksAs state own) {step : ServicesStep}
    (enabled : state.Enabled step) :
    ∃ more next, inventory.Leads TransitionSystem.anyStep own more next ∧
      StocksAs (state.perform terms step) next := by
  by_cases mine : step.of = some .inventory
  · cases step with
    | withStock sku quantity =>
        exact ⟨[.withStock sku quantity], _, .go trivial trivial .stay,
          congrArg (·.withStock sku quantity) stocks.service, stocks.calls, stocks.published⟩
    | withFlakyWarehouse count =>
        exact ⟨[.withFlakyWarehouse count], _, .go trivial trivial .stay,
          congrArg (·.withFlakyWarehouse count) stocks.service, stocks.calls, stocks.published⟩
    | take queue =>
        cases mine
        cases waiting : state.queues .inventory with
        | nil => exact absurd waiting enabled.2
        | cons message rest =>
            simp only [Services.perform, waiting]
            have free : state.reserving.isSome = false := enabled.1
            exact stocks.take (by simpa using free)
    | publish service =>
        cases mine
        rcases Option.isSome_iff_exists.mp enabled with ⟨post, outgoing⟩
        rcases Services.outgoing_inventory outgoing with ⟨outcome, held, -⟩
        exact stocks.publish terms held
    | sent service =>
        cases mine
        rcases (Option.any_eq_true _ _).mp enabled with ⟨⟨outcome, correlation, out⟩, held, isOut⟩
        cases isOut
        exact stocks.sent terms held
    | _ => cases mine
  · exact ⟨[], own, .stay, stocks.aside enabled mine⟩

end StocksAs

structure ShipsAs (state : Services) (own : Shipping) : Prop where
  service : own.service = state.shipping
  calls : own.calls = Multiset.ofList state.dispatching.toList
  published : own.published = state.published.filterMap Post.shipment?

namespace ShipsAs

variable {terms : Lease.Terms Nat} {state : Services} {own : Shipping}

private theorem aside (ships : ShipsAs state own) {step : ServicesStep}
    (enabled : state.Enabled step) (other : step.of ≠ some .shipping) :
    ShipsAs (state.perform terms step) own := by
  rcases Services.perform_shipping terms other with ⟨shipping, dispatching⟩
  refine ⟨ships.service.trans shipping.symm, by rw [dispatching, ships.calls], ?_⟩
  rw [ships.published, Services.filterMap_published terms _ enabled fun _ _ => rfl]
  intro service post whose outgoing
  exact Services.shipment?_outgoing outgoing fun mine => other (mine ▸ whose)

private theorem take (ships : ShipsAs state own) {message : Carried} {rest : List Carried}
    (idle : state.dispatching = none) :
    ∃ more next, shipping.Leads TransitionSystem.anyStep own more next ∧
      ShipsAs (Services.handle
        { state with queues := Function.update state.queues .shipping rest } message .shipping)
        next := by
  rcases ships with ⟨service, calls, published⟩
  rw [idle] at calls
  cases event : message.post.event with
  | reserved reservation =>
      rw [Services.handle_reserved event]
      exact ⟨[.deliver reservation message.post.correlation], _, .go trivial trivial .stay,
        service, congrArg (_ ::ₘ ·) calls, published⟩
  | _ =>
      refine ⟨[], own, .stay, ?_⟩
      simp only [Services.handle, event]
      refine ⟨?_, ?_, ?_⟩ <;> simp [service, calls, published, idle]

private theorem publish (terms : Lease.Terms Nat) (ships : ShipsAs state own) {event : OrderShipped}
    {correlation : String} (held : state.dispatching = some ⟨event, correlation, false⟩) :
    ∃ more next, shipping.Leads TransitionSystem.anyStep own more next ∧
      ShipsAs (state.perform terms (.publish .shipping)) next := by
  rcases ships with ⟨service, calls, published⟩
  rw [held] at calls
  refine ⟨[.publish ⟨event, correlation, false⟩], _, .go trivial ⟨?_, rfl⟩ .stay, ?_⟩
  · rw [calls]
    exact Multiset.mem_singleton_self _
  · have outgoing : state.outgoing .shipping = some ⟨.shipped event, correlation⟩ := by
      rw [Services.outgoing, held]
    simp only [Services.perform, outgoing]
    refine ⟨service, ?_, ?_⟩
    · simp only [shipping, Shipping.perform, Services.post, Services.markOut, held, calls]
      exact congrArg (_ ::ₘ ·) (Multiset.erase_singleton _)
    · simp [shipping, Shipping.perform, Services.post, published, Post.shipment?]

private theorem sent (terms : Lease.Terms Nat) (ships : ShipsAs state own) {event : OrderShipped}
    {correlation : String} (held : state.dispatching = some ⟨event, correlation, true⟩) :
    ∃ more next, shipping.Leads TransitionSystem.anyStep own more next ∧
      ShipsAs (state.perform terms (.sent .shipping)) next := by
  rcases ships with ⟨service, calls, published⟩
  rw [held] at calls
  refine ⟨[.sent ⟨event, correlation, true⟩], _, .go trivial ⟨?_, rfl⟩ .stay, ?_⟩
  · rw [calls]
    exact Multiset.mem_singleton_self _
  · simp only [Services.perform, shipping, Shipping.perform, calls, service]
    exact ⟨rfl, Multiset.erase_singleton _, published⟩

private theorem step (ships : ShipsAs state own) {step : ServicesStep}
    (enabled : state.Enabled step) :
    ∃ more next, shipping.Leads TransitionSystem.anyStep own more next ∧
      ShipsAs (state.perform terms step) next := by
  by_cases mine : step.of = some .shipping
  · cases step with
    | take queue =>
        cases mine
        cases waiting : state.queues .shipping with
        | nil => exact absurd waiting enabled.2
        | cons message rest =>
            simp only [Services.perform, waiting]
            have free : state.dispatching.isSome = false := enabled.1
            exact ships.take (by simpa using free)
    | publish service =>
        cases mine
        rcases Option.isSome_iff_exists.mp enabled with ⟨post, outgoing⟩
        rcases Services.outgoing_shipping outgoing with ⟨event, held, -⟩
        exact ships.publish terms held
    | sent service =>
        cases mine
        rcases (Option.any_eq_true _ _).mp enabled with ⟨⟨event, correlation, out⟩, held, isOut⟩
        cases isOut
        exact ships.sent terms held
    | _ => cases mine
  · exact ⟨[], own, .stay, ships.aside enabled mine⟩

end ShipsAs

/-! ## All three -/

/-- Whatever the five services do, payments, inventory and shipping each keep and publish what
they would in some run of their own. -/
theorem services_run_alone {terms : Lease.Terms Nat}
    {Allowed : Services → ServicesStep → Prop} {state : Services}
    (reached : (services terms).Reached Allowed state) :
    (∃ own, (payments terms).Reached TransitionSystem.anyStep own ∧
      own.clock = state.clock ∧ own.store = state.charged ∧
      own.services 0 = state.payments ∧
      own.published = state.published.filterMap Post.payment?) ∧
    (∃ own, inventory.Reached TransitionSystem.anyStep own ∧
      own.service = state.inventory ∧
      own.published = state.published.filterMap Post.stock?) ∧
    ∃ own, shipping.Reached TransitionSystem.anyStep own ∧
      own.service = state.shipping ∧
      own.published = state.published.filterMap Post.shipment? := by
  refine ⟨?_, ?_, ?_⟩
  · rcases reached.simulated (payments terms) PaysAs
        (by rintro state rfl; exact ⟨_, rfl, rfl, rfl, rfl, ⟨0, rfl⟩, rfl, rfl⟩)
        fun state step own _ enabled pays => pays.step enabled with ⟨own, alone, pays⟩
    exact ⟨own, alone, pays.clock, pays.store, pays.service, pays.published⟩
  · rcases reached.simulated inventory StocksAs
        (by rintro state rfl; exact ⟨_, rfl, rfl, rfl, rfl⟩)
        fun state step own _ enabled stocks => stocks.step enabled with ⟨own, alone, stocks⟩
    exact ⟨own, alone, stocks.service, stocks.published⟩
  · rcases reached.simulated shipping ShipsAs
        (by rintro state rfl; exact ⟨_, rfl, rfl, rfl, rfl⟩)
        fun state step own _ enabled ships => ships.step enabled with ⟨own, alone, ships⟩
    exact ⟨own, alone, ships.service, ships.published⟩

/-- A duplicate is refused and the warehouse fails once, in the runs of their own as well. -/
theorem duplicate_alone :
    (∃ own, (payments chargedTerms).Reached TransitionSystem.anyStep own ∧
      (own.services 0).captured = 1 ∧ (own.services 0).duplicatesRefused = 1) ∧
    (∃ own, inventory.Reached TransitionSystem.anyStep own ∧
      own.service.warehouseCalls = 2 ∧ own.service.reserved = 1) ∧
    ∃ own, shipping.Reached TransitionSystem.anyStep own ∧
      own.published.map (·.event.tracking) = ["TRK-R-1"] := by
  have reached := TransitionSystem.Reached.of_isSome_run (services chargedTerms)
    TransitionSystem.anyStep (.start rfl)
    ([.withStock "WIDGET" 5, .withFlakyWarehouse 1, .place widget.order, .relay widget.order,
        .relay widget.order, .take .payments, .claim, .publish .payments, .sent .payments,
        .confirm, .take .inventory, .take .payments, .claim,
        .retry ⟨⟨.captured ⟨"order-1", "ada", "WIDGET", 1, 25⟩, "order-1"⟩, 2⟩] ++
      handling .inventory ++ handling .shipping)
    (by decide +kernel)
  rcases services_run_alone reached with
    ⟨⟨pays, paid, -, -, payments, -⟩, ⟨stocks, reserved, inventory, -⟩, ⟨ships, shipped, -, sent⟩⟩
  refine ⟨⟨pays, paid, ?_⟩, ⟨stocks, reserved, ?_⟩, ⟨ships, shipped, ?_⟩⟩
  · rw [payments]
    decide +kernel
  · rw [inventory]
    decide +kernel
  · rw [sent]
    decide +kernel

end AmqpApps.Fulfilment
