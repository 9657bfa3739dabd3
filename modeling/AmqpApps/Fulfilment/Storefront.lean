import AmqpApps.Foundation.Transactions
import AmqpApps.Fulfilment.OneCounter
import AmqpApps.OutboxWrites

/-! # From the gateway's database to the customer's timeline

The gateway's transactions and the services run side by side, and what they have in common
is the outbox: the relay publishes the records that have been committed. To the services an
order is placed when its transaction commits.
-/

namespace AmqpApps.Fulfilment

abbrev Orders := Calls PlaceOrder (Written OrderRow (OutboxRecord OrderPlaced))

structure Storefront where
  gateway : Orders
  services : Services

inductive StorefrontStep
  | gateway (action : CallAction PlaceOrder (Written OrderRow (OutboxRecord OrderPlaced)))
  /-- The relay publishes a record, for the first time or again. -/
  | relay (record : OutboxRecord OrderPlaced)
  | services (step : ServicesStep)
deriving DecidableEq

def ServicesStep.places : ServicesStep → Bool
  | place _ | relay _ => true
  | _ => false

namespace Storefront

def initial : Storefront := ⟨.initial, .initial⟩

def Enabled (origin : String) (state : Storefront) : StorefrontStep → Prop
  | .gateway action => (AmqpApps.Fulfilment.gateway origin).Enabled state.gateway action
  | .relay record => record ∈ state.gateway.records
  | .services step => step.places = false ∧ state.services.Enabled step

instance (origin : String) (state : Storefront) (step : StorefrontStep) :
    Decidable (state.Enabled origin step) := by
  rcases step with ⟨⟩ <;> unfold Enabled <;> infer_instance

def perform (origin : String) (terms : Lease.Terms Nat) (state : Storefront) :
    StorefrontStep → Storefront
  | .gateway action =>
      { state with gateway := (AmqpApps.Fulfilment.gateway origin).perform state.gateway action }
  | .relay record =>
      { state with
        services := state.services.post ⟨.placed record.event, record.envelope.correlationId⟩ }
  | .services step => { state with services := state.services.perform terms step }

/-- The services, as if the orders of the outbox were placed with them. -/
def shop (state : Storefront) : Services :=
  { state.services with placed := state.gateway.records.map OutboxRecord.event }

/-- No duplicate of an order comes when its confirmation is past its retention. -/
def Within (terms : Lease.Terms Nat) (state : Storefront) : StorefrontStep → Prop
  | .services step => WithinRetention terms state.services step
  | _ => True

instance (terms : Lease.Terms Nat) (state : Storefront) (step : StorefrontStep) :
    Decidable (Within terms state step) := by
  rcases step with ⟨⟩ <;> unfold Within <;> infer_instance

end Storefront

def storefront (origin : String) (terms : Lease.Terms Nat) :
    TransitionSystem Storefront StorefrontStep where
  Initial state := state = Storefront.initial
  Enabled := Storefront.Enabled origin
  perform := Storefront.perform origin terms

instance (origin : String) (terms : Lease.Terms Nat) (state : Storefront)
    (step : StorefrontStep) : Decidable ((storefront origin terms).Enabled state step) :=
  inferInstanceAs (Decidable (state.Enabled origin step))

/-! ## The gateway's side -/

variable {origin : String} {terms : Lease.Terms Nat}

private theorem gateway_reached {Allowed : Storefront → StorefrontStep → Prop} {state : Storefront}
    (reached : (storefront origin terms).Reached Allowed state) :
    (gateway origin).Reached TransitionSystem.anyStep state.gateway := by
  apply reached.project Storefront.gateway
  · rintro _ rfl
    rfl
  · intro state step _ enabled
    cases step with
    | gateway action => exact .inr ⟨action, trivial, enabled, rfl⟩
    | relay record => exact .inl rfl
    | services step => exact .inl rfl

def PlaceOrder.writes (origin : String) (call : PlaceOrder) :
    List (Written OrderRow (OutboxRecord OrderPlaced)) :=
  [.row call.row, .record (call.record origin)]

private theorem atomic_of_reached
    {Allowed : Orders →
      CallAction PlaceOrder (Written OrderRow (OutboxRecord OrderPlaced)) → Prop}
    {state : Orders}
    (reached : (gateway origin).Reached Allowed state) :
    state.Atomic (PlaceOrder.writes origin) :=
  .of_reached (placeOrder_meets origin) reached

private theorem exists_placed {state : Orders}
    (reached : (gateway origin).Reached TransitionSystem.anyStep state) :
    ∃ placed : List PlaceOrder, state.rows = placed.map PlaceOrder.row ∧
      state.records = placed.map (PlaceOrder.record origin) := by
  have seen : (transactions (PlaceOrder.writes origin) (Written.key OrderRow.id)).Reached
      TransitionSystem.anyStep state.seen :=
    Calls.seen_reached (placeOrder_meets origin) reached
  rcases exists_committed seen with ⟨placed, same⟩
  exact ⟨placed, Calls.rows_records same⟩

private theorem records_step {state : Orders}
    {action : CallAction PlaceOrder (Written OrderRow (OutboxRecord OrderPlaced))}
    (reached : (gateway origin).Reached TransitionSystem.anyStep state)
    (enabled : (gateway origin).Enabled state action) :
    ((gateway origin).perform state action).records = state.records ∨
      ∃ call : PlaceOrder,
        ((gateway origin).perform state action).records =
          state.records ++ [call.record origin] ∧
        call.orderId ∉ state.records.map fun record => record.event.orderId := by
  have kept : ((gateway origin).perform state action).database = state.database →
      ((gateway origin).perform state action).records = state.records := by
    intro same
    rw [Calls.records, same, Calls.records]
  rcases (atomic_of_reached reached).seen_step enabled with ⟨-, same⟩ | ⟨step, -, possible, moved⟩
  · exact .inl (kept (congrArg Transactions.database same))
  have database := congrArg Transactions.database moved
  cases step with
  | start call => exact .inl (kept database)
  | giveUp call => exact .inl (kept database)
  | commit call =>
      have grown : ((gateway origin).perform state action).database =
          state.database ++ [call.writes origin] := database
      have free : Calls.KeysFree (Written.key OrderRow.id)
          (state.database ++ [call.writes origin]) := possible.2
      rcases exists_placed reached with ⟨placed, rows, records⟩
      refine .inr ⟨call, ?_, ?_⟩
      · rw [Calls.records, grown, List.flatten_append, List.filterMap_append]
        rfl
      · intro taken
        rw [Calls.KeysFree, List.flatten_append, List.filterMap_append,
          Calls.keys_rows state, rows, List.map_map] at free
        rw [records, List.map_map] at taken
        exact (List.nodup_append.mp free).2.2 _ taken _ (List.mem_singleton_self call.orderId) rfl

private theorem records_calls {state : Orders}
    (reached : (gateway origin).Reached TransitionSystem.anyStep state) :
    ∀ record ∈ state.records, ∃ call : PlaceOrder, record = call.record origin := by
  intro record member
  rcases exists_placed reached with ⟨placed, -, records⟩
  rw [records] at member
  rcases List.mem_map.mp member with ⟨call, -, same⟩
  exact ⟨call, same.symm⟩

/-! ## The services' side -/

namespace Services

private theorem enabled_of_placed {state : Services} {step : ServicesStep}
    (elsewhere : step.places = false)
    (orders : List OrderPlaced) (enabled : state.Enabled step) :
    { state with placed := orders }.Enabled step := by
  cases step with
  | place order => cases elsewhere
  | relay order => cases elsewhere
  | take queue => cases queue <;> exact enabled
  | publish service => cases service <;> exact enabled
  | sent service => cases service <;> exact enabled
  | _ => exact enabled

private theorem retryLater_of_placed (state : Services) (message : Carried)
    (orders : List OrderPlaced) :
    { state with placed := orders }.retryLater message =
      { state.retryLater message with placed := orders } := by
  unfold retryLater
  split <;> rfl

private theorem handle_of_placed (state : Services) (message : Carried) (queue : Queue)
    (orders : List OrderPlaced) :
    { state with placed := orders }.handle message queue =
      { state.handle message queue with placed := orders } := by
  cases queue with
  | payments =>
      simp only [handle]
      split
      · rfl
      · exact retryLater_of_placed ..
  | inventory =>
      simp only [handle]
      split
      · rename_i payment event
        split
        · exact retryLater_of_placed
            { state with inventory := (state.inventory.reserve payment).1 } message orders
        · rfl
      · exact retryLater_of_placed ..
  | shipping =>
      simp only [handle]
      split
      · rfl
      · exact retryLater_of_placed ..
  | notifications => rfl

private theorem perform_of_placed {state : Services} {step : ServicesStep}
    (elsewhere : step.places = false) (orders : List OrderPlaced) :
    { state with placed := orders }.perform terms step =
      { state.perform terms step with placed := orders } := by
  cases step with
  | place order => cases elsewhere
  | relay order => cases elsewhere
  | take queue =>
      simp only [perform]
      split
      · rfl
      · rename_i message rest waiting
        exact handle_of_placed
          { state with queues := Function.update state.queues queue rest } message queue orders
  | publish service =>
      have same : { state with placed := orders }.outgoing service = state.outgoing service := by
        cases service <;> rfl
      simp only [perform, same]
      split
      · rfl
      · cases service <;> rfl
  | claim =>
      simp only [perform]
      split
      · rfl
      · split <;> rfl
  | confirm =>
      simp only [perform]
      split <;> rfl
  | sent service =>
      cases service with
      | payments =>
          simp only [perform]
          split <;> rfl
      | inventory =>
          simp only [perform]
          split <;> rfl
      | shipping => rfl
      | notifications => rfl
  | _ => rfl

end Services

/-- To the services it is as if each order were placed with them when its transaction
commits. -/
theorem shop_reached {state : Storefront}
    (reached : (storefront origin terms).Reached (Storefront.Within terms) state) :
    (services terms).Reached (WithinRetention terms) state.shop := by
  apply reached.project_reached Storefront.shop
  · rintro _ rfl
    rfl
  · intro state action before allowed enabled
    cases action with
    | gateway action =>
        rcases records_step (gateway_reached before) enabled with same | ⟨call, longer, new⟩
        · left
          simp only [Storefront.shop, storefront, Storefront.perform, same]
        · refine .inr ⟨.place call.event, trivial, ?_, ?_⟩
          · change _ ∉ (state.gateway.records.map OutboxRecord.event).map OrderPlaced.orderId
            rw [List.map_map]
            exact new
          · simp only [Storefront.shop, storefront, Storefront.perform, longer, List.map_append]
            rfl
    | relay record =>
        rcases records_calls (gateway_reached before) record enabled with ⟨call, same⟩
        subst same
        exact .inr ⟨.relay call.event, trivial,
          List.mem_map_of_mem (f := OutboxRecord.event) enabled, rfl⟩
    | services step =>
        refine .inr ⟨step, ?_, Services.enabled_of_placed enabled.1 _ enabled.2,
          (Services.perform_of_placed enabled.1 _).symm⟩
        cases step <;> exact allowed

/-! ## Placed, and told -/

private theorem committed_of_record {state : Orders}
    (reached : (gateway origin).Reached TransitionSystem.anyStep state)
    {record : OutboxRecord OrderPlaced} (member : record ∈ state.records) :
    ∃ call, state.Committed call ∧ record = call.record origin := by
  rw [Calls.records] at member
  rcases List.mem_filterMap.mp member with ⟨written, present, is_record⟩
  rcases List.mem_flatten.mp present with ⟨block, persisted, held⟩
  rcases (atomic_of_reached reached).committed persisted with ⟨call, committed, same⟩
  refine ⟨call, committed, ?_⟩
  rw [same] at held
  rcases List.mem_cons.mp held with row | other
  · rw [row] at is_record
    cases is_record
  · rw [List.mem_singleton.mp other] at is_record
    exact (Option.some.inj is_record).symm

private theorem record_of_returned {state : Orders}
    (reached : (gateway origin).Reached TransitionSystem.anyStep state)
    {call : Ended PlaceOrder (Written OrderRow (OutboxRecord OrderPlaced))}
    (member : call ∈ state.ended) (returned : call.outcome = .returned) :
    call.call.record origin ∈ state.records := by
  have present := (atomic_of_reached reached).of_returned member returned
  refine List.mem_filterMap.mpr ⟨.record (call.call.record origin), ?_, rfl⟩
  exact List.mem_flatten.mpr ⟨_, present, by simp [PlaceOrder.writes]⟩

private theorem Services.placed_of_announced {Allowed : Services → ServicesStep → Prop}
    {state : Services}
    (reached : (services terms).Reached Allowed state) (orderId : String) :
    0 < state.times "OrderPlaced" orderId →
      orderId ∈ state.placed.map OrderPlaced.orderId := by
  apply reached.invariant fun state =>
    0 < state.times "OrderPlaced" orderId → orderId ∈ state.placed.map OrderPlaced.orderId
  · rintro _ rfl announced
    cases announced
  · intro state step placed _ enabled announced
    have kept : orderId ∈ state.placed.map OrderPlaced.orderId →
        orderId ∈ (state.perform terms step).placed.map OrderPlaced.orderId := by
      intro known
      rcases @placed_step terms state step enabled with same | ⟨order, -, -, longer⟩
      · rw [same]
        exact known
      · rw [longer, List.map_append]
        exact List.mem_append_left _ known
    have counted := @times_placed_step terms state step enabled orderId
    change 0 < (state.perform terms step).times "OrderPlaced" orderId at announced
    cases announces : step.announces orderId with
    | false =>
        rw [announces] at counted
        exact kept (placed (by simpa [counted] using announced))
    | true =>
        cases step with
        | relay order =>
            have about : order.orderId = orderId := eq_of_beq announces
            exact kept (about ▸ List.mem_map_of_mem (f := OrderPlaced.orderId) enabled)
        | _ => cases announces

namespace Storefront

def Relayed (state : Storefront) (record : OutboxRecord OrderPlaced) : Prop :=
  ⟨.placed record.event, record.envelope.correlationId⟩ ∈ state.services.published

instance (state : Storefront) (record : OutboxRecord OrderPlaced) :
    Decidable (state.Relayed record) :=
  inferInstanceAs (Decidable (_ ∈ _))

private theorem shop_atRest {state : Storefront} (rest : state.services.AtRest) :
    state.shop.AtRest where
  empty := rest.empty
  idle queue := by
    have same : state.shop.busy queue = state.services.busy queue := by cases queue <;> rfl
    rw [same]
    exact rest.idle queue
  unladdered := rest.unladdered

end Storefront

def afterwards : List ServicesStep :=
  [.withStock "WIDGET" 5, .take .payments, .claim, .publish .payments, .sent .payments,
    .confirm] ++ handling .inventory ++ handling .shipping ++
      List.replicate 4 (.take .notifications)

end AmqpApps.Fulfilment
