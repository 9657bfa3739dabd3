import AmqpApps.Fulfilment.Shop
import AmqpApps.Fulfilment.WholeStories

/-! # Five services behind one counter

An order is served when payments publishes that it is declined, or when inventory decides
on its stock. What the services publish about it, before and after, is what the shop
would tell the customer in that turn.
-/

namespace AmqpApps.Fulfilment

def ServicesStep.stocking : ServicesStep → Option (String × Int)
  | withStock sku quantity => some (sku, quantity)
  | _ => none

/-- An event that the shop would tell a customer of, given who has placed an order and
what has been answered. -/
def Vouched (placed : List OrderPlaced) (answers : List (ShopOperation × Option Ending)) :
    Event → Prop
  | .placed order => order ∈ placed
  | .captured payment => ∃ order ∈ placed, charge order = .captured payment
  | .declined refusal => ∃ order ∈ placed, (.serve order, some (.declined refusal)) ∈ answers
  | .unavailable refusal =>
      ∃ order ∈ placed, (.serve order, some (.unavailable refusal)) ∈ answers
  | .reserved reservation =>
      ∃ order ∈ placed, (.serve order, some (.shipped reservation)) ∈ answers
  | .shipped shipment => ∃ order ∈ placed, ∃ reservation,
      (.serve order, some (.shipped reservation)) ∈ answers ∧
        shipment = ShippingService.dispatch reservation

private theorem Vouched.mono {placed more : List OrderPlaced}
    {answers later : List (ShopOperation × Option Ending)} {event : Event}
    (vouched : Vouched placed answers event) (members : placed ⊆ more) (log : answers ⊆ later) :
    Vouched more later event := by
  cases event with
  | placed order => exact members vouched
  | captured payment =>
      rcases vouched with ⟨order, known, paid⟩
      exact ⟨order, members known, paid⟩
  | declined refusal =>
      rcases vouched with ⟨order, known, answered⟩
      exact ⟨order, members known, log answered⟩
  | unavailable refusal =>
      rcases vouched with ⟨order, known, answered⟩
      exact ⟨order, members known, log answered⟩
  | reserved reservation =>
      rcases vouched with ⟨order, known, answered⟩
      exact ⟨order, members known, log answered⟩
  | shipped shipment =>
      rcases vouched with ⟨order, known, reservation, answered, same⟩
      exact ⟨order, members known, reservation, log answered, same⟩

private theorem Vouched.of_outcome {placed : List OrderPlaced}
    {answers : List (ShopOperation × Option Ending)} {order : OrderPlaced}
    (outcome : StockOutcome) (known : order ∈ placed)
    (answered : (.serve order, some outcome.ending) ∈ answers) :
    Vouched placed answers outcome.event := by
  cases outcome with
  | reserved reservation => exact ⟨order, known, answered⟩
  | unavailable refusal => exact ⟨order, known, answered⟩

namespace Services

variable {terms : Lease.Terms Nat} {state next : Services} {message : Carried}
variable {actions : List ServicesStep} {operations : List ShopOperation}

/-! ## The orders that have been placed -/

/-- `place_order` draws a new id for each. -/
def Distinct (state : Services) : Prop := (state.placed.map OrderPlaced.orderId).Nodup

private theorem handle_placedOrders (state : Services) (message : Carried) (queue : Queue) :
    (state.handle message queue).placed = state.placed := by
  have kept : (state.retryLater message).placed = state.placed := by
    unfold retryLater
    split <;> rfl
  cases queue <;> simp only [handle] <;> repeat' split
  all_goals first | rfl | exact kept | (unfold retryLater; split <;> rfl)

theorem placed_step {step : ServicesStep} (enabled : state.Enabled step) :
    (state.perform terms step).placed = state.placed ∨
      ∃ order, order.orderId ∉ state.placed.map OrderPlaced.orderId ∧
        step = .place order ∧ (state.perform terms step).placed = state.placed ++ [order] := by
  cases step with
  | place order => exact .inr ⟨order, enabled, rfl, rfl⟩
  | take queue =>
      rcases List.exists_cons_of_ne_nil enabled.2 with ⟨message, rest, waiting⟩
      simp only [perform, waiting]
      exact .inl (handle_placedOrders _ message queue)
  | publish service =>
      rcases Option.isSome_iff_exists.mp enabled with ⟨post, outgoing⟩
      simp only [perform, outgoing]
      left
      cases service <;> rfl
  | claim =>
      simp only [perform]
      left
      repeat' split
      all_goals rfl
  | confirm =>
      simp only [perform]
      left
      split <;> rfl
  | sent service =>
      left
      cases service <;> simp only [perform] <;> repeat' split
      all_goals rfl
  | relay order => exact .inl rfl
  | withStock sku quantity => exact .inl rfl
  | withFlakyWarehouse count => exact .inl rfl
  | pass duration => exact .inl rfl
  | retry message => exact .inl rfl

theorem Distinct.of_reached {Allowed : Services → ServicesStep → Prop}
    (reached : (services terms).Reached Allowed state) : Distinct state := by
  apply reached.invariant Distinct
  · rintro _ rfl
    exact List.nodup_nil
  · intro state step distinct _ enabled
    have moved : (state.perform terms step).placed = state.placed ∨ _ := placed_step enabled
    rcases moved with same | ⟨order, new, -, longer⟩
    · rw [Distinct, services, same]
      exact distinct
    · rw [Distinct, services, longer, List.map_append, List.map_cons, List.map_nil]
      rw [← List.concat_eq_append]
      exact distinct.concat new

theorem Distinct.eq (distinct : Distinct state) {one other : OrderPlaced}
    (first : one ∈ state.placed) (second : other ∈ state.placed)
    (same : one.orderId = other.orderId) : one = other :=
  List.inj_on_of_nodup_map distinct first second same

/-! ## Behind the counter -/

def Answered (state : Services) (orderId : String) : Ending → Prop
  | .declined _ => 0 < state.times "PaymentDeclined" orderId
  | .unavailable _ | .shipped _ =>
      0 < state.times "StockReserved" orderId + state.times "StockUnavailable" orderId +
        state.pending .inventory orderId

/-- The run so far is that of a shop that has done these operations. -/
structure Behind (actions : List ServicesStep) (state : Services)
    (operations : List ShopOperation) : Prop where
  stocked : operations.filterMap ShopOperation.stocking =
    actions.filterMap ServicesStep.stocking
  shelves : state.inventory.stock = shop.after operations
  once : (operations.filterMap ShopOperation.serving).Nodup
  answered : ∀ order ending, (.serve order, some ending) ∈ shop.answers operations →
    order ∈ state.placed ∧ state.Answered order.orderId ending
  published : ∀ post ∈ state.published, Vouched state.placed (shop.answers operations) post.event
  outgoing : ∀ service post, service ≠ .payments → state.outgoing service = some post →
    Vouched state.placed (shop.answers operations) post.event

namespace Behind

private theorem initial : Behind [] .initial [] where
  stocked := rfl
  shelves := rfl
  once := List.nodup_nil
  answered order ending answered := by cases answered
  published := by simp [Services.initial]
  outgoing service post other outgoing := by cases service <;> cases outgoing

private theorem silent {step : ServicesStep} (behind : Behind actions state operations)
    (unstocked : step.stocking = none) (stock : next.inventory.stock = state.inventory.stock)
    (placed : state.placed ⊆ next.placed)
    (answered : ∀ orderId ending, state.Answered orderId ending → next.Answered orderId ending)
    (published : ∀ post ∈ next.published, post ∈ state.published ∨
      Vouched next.placed (shop.answers operations) post.event)
    (outgoing : ∀ service post, service ≠ .payments → next.outgoing service = some post →
      state.outgoing service = some post ∨
        Vouched next.placed (shop.answers operations) post.event) :
    Behind (actions ++ [step]) next operations where
  stocked := by
    rw [List.filterMap_append, List.filterMap_cons, unstocked]
    simpa using behind.stocked
  shelves := by
    rw [stock]
    exact behind.shelves
  once := behind.once
  answered order ending given := by
    rcases behind.answered order ending given with ⟨known, before⟩
    exact ⟨placed known, answered _ _ before⟩
  published post member := by
    rcases published post member with before | now
    · exact (behind.published post before).mono placed fun _ => id
    · exact now
  outgoing service post other sends := by
    rcases outgoing service post other sends with before | now
    · exact (behind.outgoing service post other before).mono placed fun _ => id
    · exact now

private theorem served {step : ServicesStep} {order : OrderPlaced} {ending : Ending}
    (behind : Behind actions state operations) (unstocked : step.stocking = none)
    (known : order ∈ state.placed)
    (new : order.orderId ∉ operations.filterMap ShopOperation.serving)
    (serves : serve state.inventory.stock order = (next.inventory.stock, ending))
    (placed : next.placed = state.placed)
    (answered : ∀ orderId ending, state.Answered orderId ending → next.Answered orderId ending)
    (mine : next.Answered order.orderId ending)
    (published : ∀ post ∈ next.published, post ∈ state.published ∨
      ∀ answers : List (ShopOperation × Option Ending),
        (.serve order, some ending) ∈ answers → Vouched state.placed answers post.event)
    (outgoing : ∀ service post, service ≠ .payments → next.outgoing service = some post →
      state.outgoing service = some post ∨
        ∀ answers : List (ShopOperation × Option Ending),
          (.serve order, some ending) ∈ answers → Vouched state.placed answers post.event) :
    Behind (actions ++ [step]) next (operations ++ [.serve order]) := by
  have turn : shop.perform (shop.after operations) (.serve order) =
      (next.inventory.stock, some ending) := by
    rw [← behind.shelves]
    simp only [shop, serves]
  have answers : shop.answers (operations ++ [.serve order]) =
      shop.answers operations ++ [(.serve order, some ending)] := by
    rw [shop.answers_concat, turn]
  have before : shop.answers operations ⊆ shop.answers (operations ++ [.serve order]) := by
    rw [answers]
    exact List.subset_append_left _ _
  have now : (.serve order, some ending) ∈ shop.answers (operations ++ [.serve order]) := by
    rw [answers]
    exact List.mem_append_right _ List.mem_cons_self
  constructor
  · rw [List.filterMap_append, List.filterMap_append, List.filterMap_cons, List.filterMap_cons,
      unstocked]
    simpa [ShopOperation.stocking] using behind.stocked
  · rw [shop.after_concat, turn]
  · rw [List.filterMap_append]
    simp only [List.filterMap_cons, ShopOperation.serving, List.filterMap_nil]
    rw [← List.concat_eq_append]
    exact behind.once.concat new
  · intro other otherEnding given
    rw [answers] at given
    rcases List.mem_append.mp given with earlier | last
    · rcases behind.answered other otherEnding earlier with ⟨placedBefore, told⟩
      rw [placed]
      exact ⟨placedBefore, answered _ _ told⟩
    · cases List.mem_singleton.mp last
      rw [placed]
      exact ⟨known, mine⟩
  · intro post member
    rw [placed]
    rcases published post member with earlier | vouched
    · exact (behind.published post earlier).mono (fun _ => id) before
    · exact vouched _ now
  · intro service post other sends
    rw [placed]
    rcases outgoing service post other sends with earlier | vouched
    · exact (behind.outgoing service post other earlier).mono (fun _ => id) before
    · exact vouched _ now

theorem unserved {orderId : String} (behind : Behind actions state operations)
    (nothing : ∀ ending, ¬state.Answered orderId ending) :
    orderId ∉ operations.filterMap ShopOperation.serving := by
  intro served
  rcases answered_of_served served with ⟨order, ending, same, answered⟩
  have told := (behind.answered order ending answered).2
  rw [same] at told
  exact nothing ending told

end Behind

/-! ## What an answer has led to stays -/

private theorem Answered.of_same {orderId : String} {ending : Ending}
    (answered : state.Answered orderId ending) (published : next.published = state.published)
    (outgoing : next.outgoing .inventory = state.outgoing .inventory) :
    next.Answered orderId ending := by
  cases ending with
  | declined refusal =>
      rw [Answered, times, published]
      exact answered
  | unavailable refusal =>
      rw [Answered, times, times, pending, published, outgoing]
      exact answered
  | shipped reservation =>
      rw [Answered, times, times, pending, published, outgoing]
      exact answered

private theorem Answered.post {orderId : String} {ending : Ending}
    (answered : state.Answered orderId ending) (post : Post) :
    (state.post post).Answered orderId ending := by
  have elsewhere : (state.post post).pending .inventory orderId =
      state.pending .inventory orderId := rfl
  cases ending with
  | declined refusal =>
      simp only [Answered, times_post] at answered ⊢
      omega
  | unavailable refusal =>
      simp only [Answered, times_post, elsewhere] at answered ⊢
      omega
  | shipped reservation =>
      simp only [Answered, times_post, elsewhere] at answered ⊢
      omega

private theorem Answered.publish {orderId : String} {ending : Ending} {service : Queue}
    {post : Post}
    (answered : state.Answered orderId ending) (outgoing : state.outgoing service = some post) :
    ((state.markOut service).post post).Answered orderId ending := by
  have counts := counts_of_outgoing orderId outgoing
  have kept : ∀ type, (state.markOut service).times type orderId = state.times type orderId :=
    fun type => by simp only [times, markOut_published]
  have left : ((state.markOut service).post post).pending .inventory orderId =
      if Queue.inventory = service then 0 else state.pending .inventory orderId :=
    pending_markOut service .inventory
  cases ending with
  | declined refusal =>
      simp only [Answered, times_post, kept] at answered ⊢
      omega
  | _ =>
      simp only [Answered, times_post, kept, left] at answered ⊢
      by_cases mine : service = .inventory
      · subst mine
        rcases outgoing_inventory outgoing with ⟨outcome, -, event⟩
        have kind : post.event.type = "StockReserved" ∨ post.event.type = "StockUnavailable" := by
          rw [event]
          exact outcome.type_event
        rcases kind with kind | kind <;>
          simp only [counts, kind, String.reduceEq, if_true, if_false] <;> omega
      · have other : Queue.inventory ≠ service := fun same => mine same.symm
        simp only [other, if_false]
        omega

/-! ## The steps -/

namespace Behind

private theorem of_quiet {step : ServicesStep} (behind : Behind actions state operations)
    (unstocked : step.stocking = none) (stock : next.inventory.stock = state.inventory.stock)
    (placed : state.placed ⊆ next.placed) (published : next.published = state.published)
    (outgoing : ∀ service, service ≠ .payments →
      next.outgoing service = state.outgoing service) :
    Behind (actions ++ [step]) next operations := by
  refine behind.silent unstocked stock placed ?_ ?_ ?_
  · intro orderId ending answered
    exact answered.of_same published (outgoing .inventory (by decide))
  · intro post member
    rw [published] at member
    exact .inl member
  · intro service post other sends
    rw [outgoing service other] at sends
    exact .inl sends

private theorem relay {order : OrderPlaced} (behind : Behind actions state operations)
    (known : order ∈ state.placed) :
    Behind (actions ++ [.relay order]) (state.post ⟨.placed order, order.orderId⟩)
      operations := by
  refine behind.silent rfl rfl (fun _ => id) ?_ ?_ ?_
  · intro orderId ending answered
    exact answered.post _
  · intro post member
    rcases List.mem_append.mp member with before | now
    · exact .inl before
    · rw [List.mem_singleton.mp now]
      exact .inr known
  · intro service post _ sends
    exact .inl sends

private theorem stock (behind : Behind actions state operations) (sku : String) (quantity : Int) :
    Behind (actions ++ [.withStock sku quantity])
      (state.perform terms (.withStock sku quantity)) (operations ++ [.stock sku quantity]) := by
  have answers : shop.answers (operations ++ [.stock sku quantity]) =
      shop.answers operations ++ [(.stock sku quantity, none)] := shop.answers_concat ..
  have before : shop.answers operations ⊆ shop.answers (operations ++ [.stock sku quantity]) := by
    rw [answers]
    exact List.subset_append_left _ _
  constructor
  · rw [List.filterMap_append, List.filterMap_append, behind.stocked]
    rfl
  · rw [shop.after_concat, ← behind.shelves]
    rfl
  · have none : [ShopOperation.stock sku quantity].filterMap ShopOperation.serving = [] := rfl
    rw [List.filterMap_append, none, List.append_nil]
    exact behind.once
  · intro order ending given
    rw [answers] at given
    rcases List.mem_append.mp given with earlier | last
    · exact behind.answered order ending earlier
    · cases List.mem_singleton.mp last
  · intro post member
    exact (behind.published post member).mono (fun _ => id) before
  · intro service post other sends
    exact (behind.outgoing service post other sends).mono (fun _ => id) before

/-- What is published was vouched for when it was decided on. -/
theorem publish {service : Queue} {post : Post} (behind : Behind actions state operations)
    (outgoing : state.outgoing service = some post)
    (vouched : Vouched state.placed (shop.answers operations) post.event) :
    Behind (actions ++ [.publish service]) ((state.markOut service).post post) operations := by
  have kept : ((state.markOut service).post post).inventory.stock = state.inventory.stock ∧
      ((state.markOut service).post post).placed = state.placed := by
    cases service <;> exact ⟨rfl, rfl⟩
  refine behind.silent rfl kept.1 (by rw [kept.2]; exact fun _ => id) ?_ ?_ ?_
  · intro orderId ending answered
    exact answered.publish outgoing
  · intro other member
    simp only [Services.post, markOut_published] at member
    rcases List.mem_append.mp member with before | now
    · exact .inl before
    · rw [List.mem_singleton.mp now, kept.2]
      exact .inr vouched
  · intro other another _ sends
    have marked : (state.markOut service).outgoing other = some another := sends
    rw [outgoing_markOut] at marked
    split at marked
    · cases marked
    · exact .inl marked

private theorem decline {post : Post} {order : OrderPlaced} {refusal : PaymentDeclined}
    (behind : Behind actions state operations)
    (outgoing : state.outgoing .payments = some post) (known : order ∈ state.placed)
    (declined : charge order = .declined refusal) (event : post.event = .declined refusal)
    (nothing : ∀ ending, ¬state.Answered order.orderId ending) :
    Behind (actions ++ [.publish .payments]) ((state.markOut .payments).post post)
      (operations ++ [.serve order]) := by
  have about : refusal.orderId = order.orderId := by
    have same := charge_orderId order
    rw [declined] at same
    exact same
  refine behind.served rfl known (behind.unserved nothing) (serve_declined declined) rfl ?_ ?_ ?_ ?_
  · intro orderId ending answered
    exact answered.publish outgoing
  · have counted : (Event.declined refusal).counts "PaymentDeclined" order.orderId = 1 := by
      simp [Event.counts, Event.type, Event.orderId, about]
    rw [Answered, times_post, event, counted]
    exact Nat.succ_pos _
  · intro other member
    simp only [Services.post, markOut_published] at member
    rcases List.mem_append.mp member with before | now
    · exact .inl before
    · right
      intro answers answered
      rw [List.mem_singleton.mp now, event]
      exact ⟨order, known, answered⟩
  · intro other another different sends
    have marked : (state.markOut .payments).outgoing other = some another := sends
    rw [outgoing_markOut, if_neg different] at marked
    exact .inl marked

private theorem decide {rest : List Carried} {order : OrderPlaced} {payment : PaymentCaptured}
    {outcome : StockOutcome} (behind : Behind actions state operations)
    (known : order ∈ state.placed) (paid : charge order = .captured payment)
    (ran : (state.inventory.reserve payment).2 = .ok outcome)
    (nothing : ∀ ending, ¬state.Answered order.orderId ending)
    (idle : state.reserving = none) :
    Behind (actions ++ [.take .inventory]) { state with
      queues := Function.update state.queues .inventory rest
      inventory := (state.inventory.reserve payment).1
      reserving := some ⟨outcome, message.post.correlation, false⟩ }
      (operations ++ [.serve order]) := by
  have about : outcome.orderId = order.orderId := by
    rw [InventoryService.reserve_orderId ran]
    have same := charge_orderId order
    rw [paid] at same
    exact same
  have free : state.outgoing .inventory = none := by simp [Services.outgoing, idle]
  refine behind.served rfl known (behind.unserved nothing) (serve_of_reserve paid ran) rfl
    ?_ ?_ ?_ ?_
  · intro orderId ending answered
    cases ending with
    | declined refusal => exact answered
    | _ =>
        simp only [Answered, pending, free] at answered
        exact Nat.lt_add_right _ answered
  · have waits : pending { state with
        queues := Function.update state.queues .inventory rest
        inventory := (state.inventory.reserve payment).1
        reserving := some ⟨outcome, message.post.correlation, false⟩ } .inventory order.orderId =
      (outcome.orderId == order.orderId).toNat := pending_of_reserving rfl
    have one : (outcome.orderId == order.orderId).toNat = 1 := by simp [about]
    cases outcome <;> (simp only [StockOutcome.ending, Answered, waits, one]; omega)
  · intro post member
    exact .inl member
  · intro service post other sends
    cases service with
    | payments => exact absurd rfl other
    | inventory =>
        right
        intro answers answered
        cases sends
        exact .of_outcome outcome known answered
    | shipping => exact .inl sends
    | notifications => exact .inl sends

structure Regular (state : Services) : Prop where
  honest : Honest state
  charged : ChargedOnce state
  balanced : ∀ orderId, Balanced orderId state

theorem Regular.of_reached (reached : (services terms).Reached (WithinRetention terms) state) :
    Regular state :=
  ⟨.of_reached reached, .of_reached reached, fun orderId => .of_reached orderId reached⟩

theorem Regular.nothing_of_unpaid (regular : Regular state) {orderId : String}
    (unpaid : state.paid orderId = 0) (ending : Ending) : ¬state.Answered orderId ending := by
  have decided := (regular.balanced orderId).decided
  rw [paid] at unpaid
  rw [undecided] at decided
  cases ending <;> rw [Answered] <;> omega

private theorem Regular.nothing_of_waiting (regular : Regular state) {orderId : String}
    (waits : 0 < state.waiting .inventory orderId) (ending : Ending) :
    ¬state.Answered orderId ending := by
  have decided := (regular.balanced orderId).decided
  have once := regular.charged.once orderId
  rw [paid] at once
  rw [undecided] at decided
  cases ending <;> rw [Answered] <;> omega

private theorem charge_step {post : Post} (behind : Behind actions state operations)
    (regular : Regular state) (outgoing : state.outgoing .payments = some post) :
    ∃ later, (later = operations ∨ ∃ operation, later = operations ++ [operation]) ∧
      Behind (actions ++ [.publish .payments]) ((state.markOut .payments).post post) later := by
  rcases outgoing_payments outgoing with ⟨order, held, event⟩
  have known : order ∈ state.placed := behind.published _ (regular.honest.paying _ held)
  cases outcome : charge order with
  | captured payment =>
      refine ⟨operations, .inl rfl, behind.publish outgoing ?_⟩
      rw [event, outcome]
      exact ⟨order, known, outcome⟩
  | declined refusal =>
      have unpaid : state.paid order.orderId = 0 := regular.charged.unpaid _ held rfl
      rw [outcome] at event
      exact ⟨_, .inr ⟨_, rfl⟩,
        behind.decline outgoing known outcome event (regular.nothing_of_unpaid unpaid)⟩

private theorem take_step {queue : Queue} {rest : List Carried}
    (behind : Behind actions state operations)
    (regular : Regular state) (idle : state.busy queue = false)
    (waiting : state.queues queue = message :: rest) :
    ∃ later, (later = operations ∨ ∃ operation, later = operations ++ [operation]) ∧
      Behind (actions ++ [.take queue])
        (handle { state with queues := Function.update state.queues queue rest } message queue)
        later := by
  have fits := (regular.honest.pop waiting).1
  cases queue with
  | payments =>
      rcases Event.placed_of_routed fits.2 with ⟨order, event⟩
      rw [handle_placed event]
      refine ⟨operations, .inl rfl, behind.of_quiet rfl rfl (fun _ => id) rfl ?_⟩
      intro service other
      cases service with
      | payments => exact absurd rfl other
      | inventory => rfl
      | shipping => rfl
      | notifications => rfl
  | inventory =>
      rcases Event.captured_of_routed fits.2 with ⟨payment, event⟩
      simp only [handle, event]
      cases ran : (state.inventory.reserve payment).2 with
      | error error =>
          have kept : (state.inventory.reserve payment).1.stock = state.inventory.stock := by
            rcases state.inventory.reserve_cases payment with
              ⟨_, -, same⟩ | ⟨_, -, same⟩ | ⟨answered, -⟩
            · exact same
            · exact same
            · rw [ran] at answered
              cases answered
          have tried : ∀ moved : Services, (moved.retryLater message).inventory = moved.inventory ∧
              (moved.retryLater message).placed = moved.placed := by
            intro moved
            unfold retryLater
            split <;> exact ⟨rfl, rfl⟩
          refine ⟨operations, .inl rfl, behind.of_quiet rfl ?_ ?_ ?_ ?_⟩
          · rw [(tried _).1]
            exact kept
          · rw [(tried _).2]
            exact fun _ => id
          · rw [retryLater_published]
          · intro service other
            rw [retryLater_outgoing]
            cases service with
            | payments => exact absurd rfl other
            | inventory => rfl
            | shipping => rfl
            | notifications => rfl
      | ok outcome =>
          have vouched := behind.published _ fits.1
          rw [event] at vouched
          rcases vouched with ⟨order, known, paid⟩
          have about : payment.orderId = order.orderId := by
            have same := charge_orderId order
            rw [paid] at same
            exact same
          have waits : 0 < state.waiting .inventory order.orderId := by
            rw [waiting_cons _ waiting, Carried.isAbout, event]
            simp [Event.orderId, about]
          have free : state.reserving = none := by simpa [busy] using idle
          exact ⟨_, .inr ⟨_, rfl⟩,
            behind.decide known paid ran (regular.nothing_of_waiting waits) free⟩
  | shipping =>
      rcases Event.reserved_of_routed fits.2 with ⟨reservation, event⟩
      have vouched := behind.published _ fits.1
      rw [event] at vouched
      rcases vouched with ⟨order, known, answered⟩
      rw [handle_reserved event]
      refine ⟨operations, .inl rfl, behind.silent rfl rfl (fun _ => id) ?_ ?_ ?_⟩
      · intro orderId ending told
        exact told.of_same rfl rfl
      · intro post member
        exact .inl member
      · intro service post other sends
        cases service with
        | payments => exact absurd rfl other
        | inventory => exact .inl sends
        | shipping =>
            cases sends
            exact .inr ⟨order, known, reservation, answered, rfl⟩
        | notifications => exact .inl sends
  | notifications =>
      exact ⟨operations, .inl rfl, behind.of_quiet rfl rfl (fun _ => id) rfl fun service other => by
        cases service with
        | payments => exact absurd rfl other
        | inventory => rfl
        | shipping => rfl
        | notifications => rfl⟩

/-- What a step does to the shop: nothing, or one operation. -/
theorem behind_step {step : ServicesStep} (behind : Behind actions state operations)
    (regular : Regular state) (enabled : state.Enabled step) :
    ∃ later, (later = operations ∨ ∃ operation, later = operations ++ [operation]) ∧
      Behind (actions ++ [step]) (state.perform terms step) later := by
  cases step with
  | relay order => exact ⟨operations, .inl rfl, behind.relay enabled⟩
  | withStock sku quantity => exact ⟨_, .inr ⟨_, rfl⟩, behind.stock sku quantity⟩
  | publish service =>
      rcases Option.isSome_iff_exists.mp enabled with ⟨post, outgoing⟩
      simp only [perform, outgoing]
      by_cases mine : service = .payments
      · subst mine
        exact charge_step behind regular outgoing
      · exact ⟨operations, .inl rfl,
          behind.publish outgoing (behind.outgoing service post mine outgoing)⟩
  | take queue =>
      rcases List.exists_cons_of_ne_nil enabled.2 with ⟨message, rest, waiting⟩
      simp only [perform, waiting]
      exact take_step behind regular enabled.1 waiting
  | retry message =>
      refine ⟨operations, .inl rfl, behind.of_quiet rfl rfl (fun _ => id) rfl ?_⟩
      intro service other
      cases service with
      | payments => exact absurd rfl other
      | inventory => rfl
      | shipping => rfl
      | notifications => rfl
  | place order =>
      exact ⟨operations, .inl rfl, behind.of_quiet rfl rfl (List.subset_append_left _ _) rfl
        (quiet terms enabled id).outgoing⟩
  | withFlakyWarehouse count =>
      exact ⟨operations, .inl rfl, behind.of_quiet rfl rfl (fun _ => id) rfl
        (quiet terms enabled id).outgoing⟩
  | pass duration =>
      exact ⟨operations, .inl rfl, behind.of_quiet rfl rfl (fun _ => id) rfl
        (quiet terms enabled id).outgoing⟩
  | claim =>
      have still := quiet terms enabled id
      refine ⟨operations, .inl rfl, behind.of_quiet rfl ?_ ?_ still.published still.outgoing⟩
      · simp only [perform]
        repeat' split
        all_goals rfl
      · simp only [perform]
        repeat' split
        all_goals exact fun _ => id
  | confirm =>
      have still := quiet terms enabled id
      refine ⟨operations, .inl rfl, behind.of_quiet rfl ?_ ?_ still.published still.outgoing⟩
      · simp only [perform]
        split <;> rfl
      · simp only [perform]
        split <;> exact fun _ => id
  | sent service =>
      have still := quiet terms enabled id
      have same : ∀ outcome, (state.inventory.sent outcome).stock = state.inventory.stock := by
        intro outcome
        cases outcome <;> rfl
      refine ⟨operations, .inl rfl, behind.of_quiet rfl ?_ ?_ still.published still.outgoing⟩
      · cases service <;> simp only [perform] <;> repeat' split
        all_goals first | rfl | exact same _
      · cases service <;> simp only [perform] <;> repeat' split
        all_goals exact fun _ => id

theorem behind_of_ran (ran : (services terms).Ran (WithinRetention terms) actions state) :
    ∃ operations, Behind actions state operations := by
  apply ran.explained Behind
  · rintro _ rfl
    exact .initial
  · intro actions state step operations reached behind _ enabled
    rcases behind_step behind (.of_reached reached) enabled with
      ⟨later, same | ⟨operation, longer⟩, next⟩
    · rw [same] at next
      exact .inl next
    · rw [longer] at next
      exact .inr ⟨operation, next⟩

end Behind

end Services

end AmqpApps.Fulfilment
