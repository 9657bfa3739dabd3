import AmqpApps.Fulfilment.OneCounter

/-! # The customers of the shop

Each customer is told, by five services, what the shop would tell: as far as the services
have got, and to the end when they have come to rest.
-/

namespace AmqpApps.Fulfilment

/-! ## What the customer is told -/

def unrepeated : List Event → List Event
  | [] => []
  | first :: later => first :: later.filter (·.type ≠ "OrderPlaced")

def toldOf (posts : List Post) (orderId : String) : List Event :=
  unrepeated ((posts.filter fun post => post.event.orderId = orderId).map Post.event)

private theorem types_toldOf (posts : List Post) (orderId : String) :
    (toldOf posts orderId).map Event.type = withoutRepeats (typesOf posts orderId) := by
  have types : typesOf posts orderId =
      ((posts.filter fun post => post.event.orderId = orderId).map Post.event).map Event.type := by
    rw [List.map_map]
    rfl
  rw [types, toldOf]
  cases (posts.filter fun post => post.event.orderId = orderId).map Post.event with
  | nil => rfl
  | cons first later =>
      simp only [unrepeated, withoutRepeats, List.map_cons, List.filter_map]
      rfl

private theorem mem_toldOf {posts : List Post} {orderId : String} {event : Event}
    (member : event ∈ toldOf posts orderId) :
    ∃ post ∈ posts, post.event = event ∧ event.orderId = orderId := by
  have among : event ∈ (posts.filter fun post => post.event.orderId = orderId).map Post.event := by
    rw [toldOf] at member
    cases all : (posts.filter fun post => post.event.orderId = orderId).map Post.event with
    | nil =>
        rw [all] at member
        cases member
    | cons first later =>
        rw [all, unrepeated] at member
        rcases List.mem_cons.mp member with same | after
        · rw [same]
          exact List.mem_cons_self
        · exact List.mem_cons_of_mem _ (List.mem_filter.mp after).1
  rcases List.mem_map.mp among with ⟨post, kept, same⟩
  rcases List.mem_filter.mp kept with ⟨published, about⟩
  refine ⟨post, published, same, ?_⟩
  rw [← same]
  exact of_decide_eq_true about

private theorem part_of_story {types told : List String} (member : told ∈ stories)
    (tells : Tells types) (among : ∀ type ∈ withoutRepeats types, type ∈ told) :
    withoutRepeats types <+: told := by
  rcases tells with ⟨-, story, listed, part⟩
  have finite : ∀ story ∈ stories, ∀ told ∈ stories, ∀ part ∈ story.inits,
      (∀ type ∈ part, type ∈ told) → part <+: told := by decide
  exact finite story listed told member _ ((List.mem_inits _ _).mpr part) among

private theorem part_of_beginning {types : List String} (tells : Tells types)
    (unended : ∀ type ∈ withoutRepeats types,
      type ∉ ["PaymentDeclined", "StockReserved", "StockUnavailable", "OrderShipped"]) :
    withoutRepeats types <+: ["OrderPlaced", "PaymentCaptured"] := by
  rcases tells with ⟨-, story, listed, part⟩
  have finite : ∀ story ∈ stories, ∀ part ∈ story.inits,
      (∀ type ∈ part,
        type ∉ ["PaymentDeclined", "StockReserved", "StockUnavailable", "OrderShipped"]) →
      part <+: ["OrderPlaced", "PaymentCaptured"] := by decide
  exact finite story listed _ ((List.mem_inits _ _).mpr part) unended

private theorem whole_of_part {told story : List String} (first : told ∈ stories)
    (second : story ∈ stories) (part : told <+: story) : told = story := by
  have finite : ∀ told ∈ stories, ∀ story ∈ stories, told <+: story → told = story := by decide
  exact finite told first story second part

private theorem types_story {order : OrderPlaced} {ending : Ending} {shelves : Tally String Int}
    (serves : (serve shelves order).2 = ending) :
    (story order ending).map Event.type ∈ stories := by
  cases outcome : charge order with
  | captured payment =>
      cases ending with
      | declined refusal =>
          rw [charge_of_serve_declined serves] at outcome
          cases outcome
      | unavailable refusal =>
          simp [story, stories, outcome, PaymentOutcome.event, Event.type]
      | shipped reservation =>
          simp [story, stories, outcome, PaymentOutcome.event, Event.type]
  | declined refusal =>
      rw [serve_declined outcome] at serves
      subst serves
      simp [story, stories, Event.type]

namespace Services.Behind

variable {terms : Lease.Terms Nat} {state : Services} {actions : List ServicesStep}
variable {operations : List ShopOperation}

private theorem mem_story {order : OrderPlaced} {ending : Ending} {post : Post}
    (behind : Behind actions state operations) (distinct : Distinct state)
    (answered : (.serve order, some ending) ∈ shop.answers operations)
    (published : post ∈ state.published) (about : post.event.orderId = order.orderId) :
    post.event ∈ story order ending := by
  have known := (behind.answered order ending answered).1
  -- Whatever vouches for the event is this order, and its answer this ending.
  have mine : ∀ other ∈ state.placed, other.orderId = order.orderId → other = order :=
    fun other placed same => distinct.eq placed known same
  have only : ∀ other otherEnding, (.serve other, some otherEnding) ∈ shop.answers operations →
      otherEnding.orderId = order.orderId → otherEnding = ending := by
    intro other otherEnding told same
    rcases mem_answers_serve told with ⟨shelves, serves⟩
    have named := serve_orderId shelves other
    rw [serves, same] at named
    rw [mine other (behind.answered other otherEnding told).1 named.symm] at told
    exact answer_unique behind.once told answered
  have vouched := behind.published post published
  cases event : post.event with
  | placed other =>
      rw [event] at vouched about
      rw [mine other vouched about]
      cases ending <;> simp [story]
  | captured payment =>
      rw [event] at vouched about
      rcases vouched with ⟨other, placed, paid⟩
      have same := charge_orderId other
      rw [paid] at same
      rw [mine other placed (same.symm.trans about)] at paid
      cases ending with
      | declined refusal =>
          rcases mem_answers_serve answered with ⟨shelves, serves⟩
          rw [charge_of_serve_declined serves] at paid
          cases paid
      | unavailable refusal => simp [story, paid, PaymentOutcome.event]
      | shipped reservation => simp [story, paid, PaymentOutcome.event]
  | declined refusal =>
      rw [event] at vouched about
      rcases vouched with ⟨other, -, told⟩
      rw [← only other _ told about]
      simp [story]
  | unavailable refusal =>
      rw [event] at vouched about
      rcases vouched with ⟨other, -, told⟩
      rw [← only other _ told about]
      simp [story]
  | reserved reservation =>
      rw [event] at vouched about
      rcases vouched with ⟨other, -, told⟩
      rw [← only other _ told about]
      simp [story]
  | shipped shipment =>
      rw [event] at vouched about
      rcases vouched with ⟨other, -, reservation, told, same⟩
      rw [same] at about
      rw [← only other _ told about, same]
      simp [story]

/-- What the customer has been told is the beginning of the story. -/
theorem told_part {order : OrderPlaced} {ending : Ending}
    (behind : Behind actions state operations) (distinct : Distinct state)
    (told : ToldInOrder state)
    (answered : (.serve order, some ending) ∈ shop.answers operations) :
    toldOf state.published order.orderId <+: story order ending := by
  have among : ∀ event ∈ toldOf state.published order.orderId, event ∈ story order ending := by
    intro event member
    rcases mem_toldOf member with ⟨post, published, same, about⟩
    rw [← same] at about ⊢
    exact behind.mem_story distinct answered published about
  rcases mem_answers_serve answered with ⟨shelves, serves⟩
  have listed := types_story serves
  have nodup : ((story order ending).map Event.type).Nodup := by
    have finite : ∀ story ∈ stories, story.Nodup := by decide
    exact finite _ listed
  apply part_of_keys nodup among
  rw [types_toldOf]
  apply part_of_story listed (told order.orderId)
  intro type member
  rw [← types_toldOf] at member
  rcases List.mem_map.mp member with ⟨event, listedToo, same⟩
  rw [← same]
  exact List.mem_map.mpr ⟨event, among event listedToo, rfl⟩

private theorem served_of_ended {post : Post} (behind : Behind actions state operations)
    (published : post ∈ state.published)
    (ended : post.event.type ∈
      ["PaymentDeclined", "StockReserved", "StockUnavailable", "OrderShipped"]) :
    post.event.orderId ∈ operations.filterMap ShopOperation.serving := by
  have named : ∀ order ending, (.serve order, some ending) ∈ shop.answers operations →
      ending.orderId ∈ operations.filterMap ShopOperation.serving := by
    intro order ending told
    rcases mem_answers_serve told with ⟨shelves, serves⟩
    have same := serve_orderId shelves order
    rw [serves] at same
    rw [same]
    exact served_of_answered told
  have vouched := behind.published post published
  cases event : post.event with
  | placed order => simp [event, Event.type] at ended
  | captured payment => simp [event, Event.type] at ended
  | declined refusal =>
      rw [event] at vouched
      rcases vouched with ⟨order, -, told⟩
      exact named order _ told
  | unavailable refusal =>
      rw [event] at vouched
      rcases vouched with ⟨order, -, told⟩
      exact named order _ told
  | reserved reservation =>
      rw [event] at vouched
      rcases vouched with ⟨order, -, told⟩
      exact named order _ told
  | shipped shipment =>
      rw [event] at vouched
      rcases vouched with ⟨order, -, reservation, told, same⟩
      rw [same]
      exact named order _ told

private theorem served_of_times {orderId : String} (type : String)
    (behind : Behind actions state operations)
    (ended : type ∈ ["PaymentDeclined", "StockReserved", "StockUnavailable", "OrderShipped"])
    (happened : 0 < state.times type orderId) :
    orderId ∈ operations.filterMap ShopOperation.serving := by
  rcases List.mem_map.mp (List.count_pos_iff.mp happened) with ⟨post, kept, same⟩
  rcases List.mem_filter.mp kept with ⟨published, about⟩
  rw [← of_decide_eq_true about]
  exact behind.served_of_ended published (by rw [same]; exact ended)

private theorem announced_of_answered {order : OrderPlaced} {ending : Ending}
    (behind : Behind actions state operations) (regular : Regular state)
    (told : ToldInOrder state)
    (answered : (.serve order, some ending) ∈ shop.answers operations) :
    0 < state.times "OrderPlaced" order.orderId := by
  have paid : state.paid order.orderId ≠ 0 := fun unpaid =>
    regular.nothing_of_unpaid unpaid ending (behind.answered order ending answered).2
  have nonempty : typesOf state.published order.orderId ≠ [] := by
    intro none
    simp [Services.paid, times, none] at paid
  exact List.count_pos_iff.mpr (List.mem_of_mem_head? ((told order.orderId).1 nonempty))

private theorem told_unserved {orderId : String} (behind : Behind actions state operations)
    (told : ToldInOrder state)
    (unserved : orderId ∉ operations.filterMap ShopOperation.serving) :
    (toldOf state.published orderId).map Event.type <+: ["OrderPlaced", "PaymentCaptured"] := by
  rw [types_toldOf]
  apply part_of_beginning (told orderId)
  intro type member ended
  apply unserved
  apply behind.served_of_times type ended
  have other : type ≠ "OrderPlaced" := by
    rintro rfl
    simp at ended
  exact List.count_pos_iff.mpr ((mem_withoutRepeats other).mp member)

/-- When the services have come to rest, those have been served whose payment was not given
up. -/
theorem served_at_rest {orderId : String} (behind : Behind actions state operations)
    (regular : Regular state) (attended : Attended state) (rest : AtRest state)
    (announced : 0 < state.times "OrderPlaced" orderId) :
    orderId ∈ operations.filterMap ShopOperation.serving ↔ state.givenUp orderId = 0 := by
  have shipped := (regular.balanced orderId).shipped
  rcases decided_at_rest rest attended regular.charged (regular.balanced orderId) announced with
    ⟨declined, kept⟩ | ⟨-, undeclined, ⟨givenUp, unreserved, available⟩ | ⟨kept, refused⟩ |
      ⟨kept, sent⟩⟩
  · exact ⟨fun _ => kept, fun _ =>
      behind.served_of_times "PaymentDeclined" (by simp) (by omega)⟩
  · refine ⟨fun served => ?_, fun kept => by omega⟩
    refine absurd served (behind.unserved fun ending answered => ?_)
    cases ending <;> simp only [Answered, rest.pending] at answered <;> omega
  · exact ⟨fun _ => kept, fun _ =>
      behind.served_of_times "StockUnavailable" (by simp) (by omega)⟩
  · exact ⟨fun _ => kept, fun _ =>
      behind.served_of_times "OrderShipped" (by simp) (by omega)⟩

end Services.Behind

/-- The five services are a shop with one counter. For every run there is an order in which
the shop could have filled its shelves, as they were filled, and served customers, none of
them twice: it ends with the stock that inventory has, and each customer who has been served
is told the beginning of what the shop would tell, and no other more than that the order is
paid for. When the services have come to rest, all who were announced have been served but
those whose payment was given up, and each is told the whole. -/
theorem services_keep_shop {terms : Lease.Terms Nat} {actions : List ServicesStep}
    {state : Services} (ran : (services terms).Ran (WithinRetention terms) actions state) :
    ∃ operations : List ShopOperation,
      operations.filterMap ShopOperation.stocking = actions.filterMap ServicesStep.stocking ∧
      (operations.filterMap ShopOperation.serving).Nodup ∧
      state.inventory.stock = shop.after operations ∧
      (∀ order ending, (.serve order, some ending) ∈ shop.answers operations →
        order ∈ state.placed ∧ toldOf state.published order.orderId <+: story order ending) ∧
      (∀ orderId, orderId ∉ operations.filterMap ShopOperation.serving →
        (toldOf state.published orderId).map Event.type <+:
          ["OrderPlaced", "PaymentCaptured"]) ∧
      (state.AtRest →
        (∀ orderId, 0 < actions.countP (ServicesStep.announces orderId) →
          (orderId ∈ operations.filterMap ShopOperation.serving ↔
            state.givenUp orderId = 0)) ∧
        ∀ order ending, (.serve order, some ending) ∈ shop.answers operations →
          toldOf state.recorded order.orderId = story order ending) := by
  have reached := ran.reached
  have distinct : Services.Distinct state := .of_reached reached
  have told : Services.ToldInOrder state := .of_reached reached
  have regular : Services.Behind.Regular state := .of_reached reached
  have attended : Services.Attended state := .of_reached reached
  rcases Services.Behind.behind_of_ran ran with ⟨operations, behind⟩
  refine ⟨operations, behind.stocked, behind.once, behind.shelves, ?_, ?_, ?_⟩
  · intro order ending answered
    exact ⟨(behind.answered order ending answered).1, behind.told_part distinct told answered⟩
  · intro orderId unserved
    exact behind.told_unserved told unserved
  · intro rest
    have served : ∀ orderId, 0 < actions.countP (ServicesStep.announces orderId) →
        (orderId ∈ operations.filterMap ShopOperation.serving ↔ state.givenUp orderId = 0) := by
      intro orderId announced
      rw [← times_placed_of_ran ran] at announced
      exact behind.served_at_rest regular attended rest announced
    refine ⟨served, ?_⟩
    intro order ending answered
    have part := behind.told_part distinct told answered
    have recording : state.Recording := .of_reached reached
    rw [rest.recorded recording]
    have announced : 0 < actions.countP (ServicesStep.announces order.orderId) := by
      rw [← times_placed_of_ran ran]
      exact behind.announced_of_answered regular told answered
    have kept := (served order.orderId announced).mp (served_of_answered answered)
    have shown : state.timelineOf order.orderId = typesOf state.published order.orderId := by
      rw [Services.timelineOf_eq (.of_reached reached) recording, rest.recorded recording]
    rcases mem_answers_serve answered with ⟨shelves, serves⟩
    have whole : withoutRepeats (typesOf state.published order.orderId) ∈ stories := by
      rw [← times_placed_of_ran ran order.orderId] at announced
      rcases told_at_rest ran.reached rest announced with
        ⟨-, whole⟩ | ⟨givenUp, -⟩
      · rw [shown] at whole
        exact whole
      · omega
    have length := congrArg List.length
      (whole_of_part whole (types_story serves) (by rw [← types_toldOf]; exact part.map _))
    rw [← types_toldOf, List.length_map, List.length_map] at length
    exact part.eq_of_length length

/-- The last widget goes to the first of two customers, and the order of the second is not
found in stock. -/
theorem last_widget_sold : ∃ (state : Services) (operations : List ShopOperation),
    operations.filterMap ShopOperation.stocking = [("WIDGET", 1)] ∧
      state.inventory.stock = shop.after operations ∧
      (∀ orderId ∈ ["order-1", "order-2"],
        orderId ∈ operations.filterMap ShopOperation.serving ↔ state.givenUp orderId = 0) ∧
      ∀ order ending, (.serve order, some ending) ∈ shop.answers operations →
        toldOf state.recorded order.orderId = story order ending := by
  have ran := TransitionSystem.Ran.of_isSome_run (services chargedTerms)
    (WithinRetention chargedTerms) rfl
    (.withStock "WIDGET" 1 :: paidFor widget.order ++
      paidFor { widget.order with orderId := "order-2" } ++ handling .inventory ++
      handling .inventory ++ handling .shipping ++ List.replicate 3 (.take .notifications))
    (by decide +kernel)
  rcases services_keep_shop ran with ⟨operations, stocked, -, shelves, -, -, atRest⟩
  rcases atRest (by decide +kernel) with ⟨served, told⟩
  refine ⟨_, operations, stocked, shelves, ?_, told⟩
  intro orderId named
  apply served
  simp only [List.mem_cons, List.not_mem_nil, or_false] at named
  rcases named with rfl | rfl <;> decide +kernel

end AmqpApps.Fulfilment
