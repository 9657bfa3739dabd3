import AmqpApps.Foundation.Runs
import AmqpApps.Fulfilment.Traffic

/-! # The services come to rest

Nobody but the relay brings in new work, and a message is worked off in a bounded number
of steps, the attempts of the retry ladder included.
-/

namespace AmqpApps.Fulfilment

def ServicesStep.own : ServicesStep → Bool
  | take _ | claim | confirm | publish _ | sent _ | retry _ => true
  | place _ | relay _ | withStock .. | withFlakyWarehouse _ | pass _ => false

def ServicesStep.relays : ServicesStep → Bool
  | relay _ => true
  | _ => false

/-! ## What a message is worth

A message is worth the steps that it can still lead to, those of the messages published
on its account included.
-/

namespace Carried

def work (message : Carried) : Queue → Nat
  -- The claim, the publish and its return, and the confirmation; inventory; the record.
  | .payments => 20
  -- An attempt that fails costs the attempt and the way back from the ladder.
  | .inventory => 8 + 2 * (retryAttempts - message.attempt)
  | .shipping => 4
  | .notifications => 1

end Carried

def Event.work : Event → Nat
  | placed _ => 21
  | captured _ => 15
  | reserved _ => 5
  | declined _ | unavailable _ | shipped _ => 1

def Await.work : Await → Nat
  | claim => 19
  | publish false => 18
  | publish true => 2
  | confirmation => 1
  | acknowledgement => 0

def Reservation.work (call : Reservation) : Nat := if call.out then 1 else 7

def Dispatch.work (call : Dispatch) : Nat := if call.out then 1 else 3

namespace Services

variable {terms : Lease.Terms Nat} {state next : Services} {message : Carried}

def queued (state : Services) (queue : Queue) : Nat :=
  ((state.queues queue).map (Carried.work · queue)).sum

def work (state : Services) : Nat :=
  state.queued .payments + state.queued .inventory + state.queued .shipping +
    state.queued .notifications +
    (state.ladder.map fun message => message.work .inventory + 1).sum +
    (state.awaits.map Await.work).getD 0 + (state.reserving.map Reservation.work).getD 0 +
    (state.dispatching.map Dispatch.work).getD 0

private theorem queued_post (state : Services) (post : Post) (queue : Queue) :
    (state.post post).queued queue = state.queued queue +
      if routed Contracts.topology post.event.routingKey queue then
        Carried.work ⟨post, 1⟩ queue
      else 0 := by
  simp only [queued, Services.post, route]
  split <;> simp

private theorem work_post (state : Services) (post : Post) :
    (state.post post).work = state.work + post.event.work := by
  have shares : ∀ queue, (state.post post).queued queue = state.queued queue +
      if routed Contracts.topology post.event.routingKey queue then
        Carried.work ⟨post, 1⟩ queue
      else 0 := state.queued_post post
  have elsewhere : (state.post post).ladder = state.ladder ∧
      (state.post post).awaits = state.awaits ∧
      (state.post post).reserving = state.reserving ∧
      (state.post post).dispatching = state.dispatching := ⟨rfl, rfl, rfl, rfl⟩
  rcases elsewhere with ⟨ladder, awaits, reserving, dispatching⟩
  rw [work, shares, shares, shares, shares, ladder, awaits, reserving, dispatching, work]
  simp only [Event.routed_topology]
  cases event : post.event <;>
    simp only [Event.type, Event.work, Carried.work, retryAttempts, String.reduceEq, if_true,
      if_false] <;> omega

private theorem queued_cons {queue : Queue} {rest : List Carried}
    (waiting : state.queues queue = message :: rest) :
    state.queued queue = message.work queue + (rest.map (Carried.work · queue)).sum := by
  rw [queued, waiting, List.map_cons, List.sum_cons]

private theorem work_pop {queue : Queue} {rest : List Carried}
    (waiting : state.queues queue = message :: rest) :
    work { state with queues := Function.update state.queues queue rest } +
      message.work queue = state.work := by
  have share := queued_cons waiting
  have taken : ∀ other,
      queued { state with queues := Function.update state.queues queue rest } other =
        if other = queue then (rest.map (Carried.work · queue)).sum else state.queued other := by
    intro other
    by_cases same : other = queue
    · subst same
      simp [queued]
    · simp [queued, same]
  simp only [work, taken, awaits]
  cases queue <;> simp only [reduceCtorEq, if_true, if_false] <;> omega

private theorem work_retryLater :
    (state.retryLater message).work < state.work + message.work .inventory := by
  unfold retryLater
  split
  · rename_i again
    simp only [work, queued, awaits, Carried.work, Multiset.map_cons, Multiset.sum_cons]
    omega
  · simp only [work, queued, awaits, Carried.work]
    omega

private theorem work_markOut {service : Queue} {post : Post}
    (outgoing : state.outgoing service = some post) :
    (state.markOut service).work + post.event.work < state.work := by
  cases service with
  | payments =>
      rcases outgoing_payments outgoing with ⟨order, held, event⟩
      have share : (charge order).event.work ≤ 15 := by
        cases charge order <;> simp [PaymentOutcome.event, Event.work]
      simp only [work, queued, markOut, awaits, held, event, Option.map_some, Option.getD_some,
        Await.work]
      omega
  | inventory =>
      rcases outgoing_inventory outgoing with ⟨outcome, held, event⟩
      have share : outcome.event.work ≤ 5 := by
        cases outcome <;> simp [StockOutcome.event, Event.work]
      simp only [work, queued, markOut, awaits, held, event, Option.map_some, Option.getD_some,
        Reservation.work, if_true, Bool.false_eq_true, if_false]
      omega
  | shipping =>
      rcases outgoing_shipping outgoing with ⟨shipment, held, event⟩
      simp only [work, queued, markOut, awaits, held, event, Option.map_some, Option.getD_some,
        Dispatch.work, Event.work, if_true, Bool.false_eq_true, if_false]
      omega
  | notifications => cases outgoing

private theorem work_handle {queue : Queue} (fits : state.Fits queue message)
    (idle : state.busy queue = false) :
    (state.handle message queue).work < state.work + message.work queue := by
  cases queue with
  | payments =>
      rcases Event.placed_of_routed fits.2 with ⟨order, event⟩
      have free : state.paying = none := by simpa [busy] using idle
      rw [handle_placed event]
      simp [work, queued, awaits, free, Await.work, Carried.work]
      omega
  | inventory =>
      rcases Event.captured_of_routed fits.2 with ⟨payment, event⟩
      rcases handle_captured event with ⟨service, raised⟩ | ⟨service, outcome, same, ran⟩
      · rw [raised]
        exact work_retryLater
      · have free : state.reserving = none := by simpa [busy] using idle
        rw [ran]
        simp [work, queued, awaits, free, Reservation.work, Carried.work]
        omega
  | shipping =>
      rcases Event.reserved_of_routed fits.2 with ⟨reservation, event⟩
      have free : state.dispatching = none := by simpa [busy] using idle
      rw [handle_reserved event]
      simp [work, queued, awaits, free, Dispatch.work, Carried.work]
  | notifications => simp [handle, work, queued, awaits, Carried.work]

private theorem work_retry (laddered : message ∈ state.ladder) :
    (state.perform terms (.retry message)).work < state.work := by
  have share : (state.ladder.map fun message => message.work .inventory + 1).sum =
      message.work .inventory + 1 +
        ((state.ladder.erase message).map fun message => message.work .inventory + 1).sum :=
    (Multiset.sum_map_erase laddered).symm
  simp [work, perform, queued, awaits, share]
  omega

/-! ## Running down -/

structure Underway (state : Services) : Prop where
  honest : Honest state
  working : state.awaits ≠ some .acknowledgement

namespace Underway

private theorem initial : Underway .initial := ⟨.initial, by simp [Services.initial, awaits]⟩

private theorem working_of_same (underway : Underway state) (paying : next.paying = state.paying) :
    next.awaits ≠ some .acknowledgement := by
  rw [awaits, paying]
  exact underway.working

private theorem step {step : ServicesStep} (underway : Underway state)
    (enabled : state.Enabled step) :
    Underway (state.perform terms step) := by
  refine ⟨underway.honest.step enabled, ?_⟩
  cases step with
  | place order => exact underway.working
  | relay order => exact underway.working
  | withStock sku quantity => exact underway.working
  | withFlakyWarehouse count => exact underway.working
  | pass duration => exact underway.working
  | retry message => exact underway.working
  | take queue =>
      rcases List.exists_cons_of_ne_nil enabled.2 with ⟨message, rest, waiting⟩
      simp only [perform, waiting]
      by_cases mine : queue = .payments
      · subst mine
        rcases Event.placed_of_routed (underway.honest.pop waiting).1.2 with ⟨order, event⟩
        simp [handle_placed event, awaits]
      · exact underway.working_of_same (handle_paying _ _ _ mine)
  | claim =>
      rcases Option.map_eq_some_iff.mp enabled with ⟨paying, held, -⟩
      simp only [perform, held]
      split <;> simp [awaits]
  | confirm =>
      rcases Option.map_eq_some_iff.mp enabled with ⟨paying, held, -⟩
      simp [perform, held, awaits]
  | publish service =>
      rcases Option.isSome_iff_exists.mp enabled with ⟨post, outgoing⟩
      simp only [perform, outgoing]
      cases service with
      | payments =>
          rcases outgoing_payments outgoing with ⟨order, held, -⟩
          simp [Services.post, markOut, awaits, held]
      | inventory => exact underway.working
      | shipping => exact underway.working
      | notifications => exact underway.working
  | sent service =>
      cases service with
      | payments =>
          cases held : state.paying with
          | none =>
              simp only [perform, held]
              exact underway.working
          | some paying => simp [perform, held, awaits]
      | inventory =>
          simp only [perform]
          split <;> exact underway.working
      | shipping => exact underway.working
      | notifications => exact underway.working

private theorem of_reached {Allowed : Services → ServicesStep → Prop}
    (reached : (services terms).Reached Allowed state) : Underway state :=
  reached.invariant Underway (fun _ first => by cases first; exact initial)
    fun _ _ underway _ enabled => underway.step enabled

end Underway

private theorem work_sent {service : Queue} (out : state.isOut service = true) :
    (state.perform terms (.sent service)).work < state.work := by
  cases service with
  | payments =>
      have awaits : state.awaits = some (.publish true) := by simpa [isOut] using out
      rcases Option.map_eq_some_iff.mp awaits with ⟨paying, held, waits⟩
      simp [perform, held, work, queued, Services.awaits, waits, Await.work]
  | inventory =>
      rcases (Option.any_eq_true ..).mp out with ⟨call, held, isOut⟩
      simp [perform, held, work, queued, awaits, Reservation.work, isOut]
  | shipping =>
      rcases (Option.any_eq_true ..).mp out with ⟨call, held, isOut⟩
      simp [perform, held, work, queued, awaits, Dispatch.work, isOut]
  | notifications => cases out

/-- Every step of the services' own leaves less work. -/
theorem work_step {step : ServicesStep} (underway : Underway state) (own : step.own = true)
    (enabled : state.Enabled step) : (state.perform terms step).work < state.work := by
  cases step with
  | take queue =>
      rcases List.exists_cons_of_ne_nil enabled.2 with ⟨message, rest, waiting⟩
      rcases underway.honest.pop waiting with ⟨fits, -⟩
      have popped := work_pop waiting
      have started := @work_handle { state with queues := Function.update state.queues queue rest }
        _ _ fits enabled.1
      simp only [perform, waiting]
      omega
  | claim =>
      rcases Option.map_eq_some_iff.mp enabled with ⟨paying, held, waits⟩
      simp only [perform, held]
      split <;> simp [work, queued, awaits, held, waits, Await.work]
  | confirm =>
      rcases Option.map_eq_some_iff.mp enabled with ⟨paying, held, waits⟩
      simp [perform, work, queued, awaits, held, waits, Await.work]
  | publish service =>
      rcases Option.isSome_iff_exists.mp enabled with ⟨post, outgoing⟩
      have lighter := work_markOut outgoing
      simp only [perform, outgoing, work_post]
      exact lighter
  | sent service => exact work_sent enabled
  | retry message => exact work_retry enabled
  | place order => cases own
  | relay order => cases own
  | withStock sku quantity => cases own
  | withFlakyWarehouse count => cases own
  | pass duration => cases own

private theorem runsDown (terms : Lease.Terms Nat) :
    (services terms).RunsDown (TransitionSystem.byItself (·.own = true)) Underway work where
  kept _ _ underway _ enabled := underway.step enabled
  lighter _ _ underway own enabled := work_step underway own enabled

private theorem work_given {step : ServicesStep} (given : step.own = false) :
    (state.perform terms step).work = state.work + 21 * step.relays.toNat := by
  cases step with
  | relay order => exact work_post state _
  | place order => rfl
  | withStock sku quantity => rfl
  | withFlakyWarehouse count => rfl
  | pass duration => rfl
  | take queue => cases given
  | claim => cases given
  | confirm => cases given
  | publish service => cases given
  | sent service => cases given
  | retry message => cases given

/-! ## At rest -/

/-- No service has a message to handle, or one in hand. -/
structure AtRest (state : Services) : Prop where
  empty : ∀ queue, state.queues queue = []
  idle : ∀ queue, state.busy queue = false
  unladdered : state.ladder = 0

private theorem atRest_iff (state : Services) : AtRest state ↔
    (∀ queue ∈ [Queue.payments, .inventory, .shipping, .notifications],
      state.queues queue = [] ∧ state.busy queue = false) ∧ state.ladder = 0 := by
  constructor
  · intro rest
    exact ⟨fun queue _ => ⟨rest.empty queue, rest.idle queue⟩, rest.unladdered⟩
  · intro still
    have each : ∀ queue, state.queues queue = [] ∧ state.busy queue = false :=
      fun queue => still.1 queue (by cases queue <;> decide)
    exact ⟨fun queue => (each queue).1, fun queue => (each queue).2, still.2⟩

instance (state : Services) : Decidable (AtRest state) :=
  decidable_of_iff _ (atRest_iff state).symm

private theorem atRest_of_still (underway : Underway state)
    (still : (services terms).Still (TransitionSystem.byItself (·.own = true)) state) :
    AtRest state := by
  change ∀ step : ServicesStep, step.own = true → ¬state.Enabled step at still
  have idle : ∀ queue, state.busy queue = false := by
    intro queue
    cases queue with
    | payments =>
        cases held : state.paying with
        | none => simp [busy, held]
        | some paying =>
            rcases paying with ⟨order, correlation, await⟩
            cases await with
            | claim => exact absurd (by simp [Enabled, awaits, held]) (still .claim rfl)
            | publish out =>
                cases out with
                | false =>
                    exact absurd (by simp [Enabled, outgoing, held])
                      (still (.publish .payments) rfl)
                | true =>
                    exact absurd (by simp [Enabled, isOut, awaits, held])
                      (still (.sent .payments) rfl)
            | confirmation => exact absurd (by simp [Enabled, awaits, held]) (still .confirm rfl)
            | acknowledgement => exact absurd (by simp [awaits, held]) underway.working
    | inventory =>
        cases held : state.reserving with
        | none => simp [busy, held]
        | some call =>
            rcases call with ⟨outcome, correlation, out⟩
            cases out with
            | false =>
                exact absurd (by simp [Enabled, outgoing, held]) (still (.publish .inventory) rfl)
            | true => exact absurd (by simp [Enabled, isOut, held]) (still (.sent .inventory) rfl)
    | shipping =>
        cases held : state.dispatching with
        | none => simp [busy, held]
        | some call =>
            rcases call with ⟨event, correlation, out⟩
            cases out with
            | false =>
                exact absurd (by simp [Enabled, outgoing, held]) (still (.publish .shipping) rfl)
            | true => exact absurd (by simp [Enabled, isOut, held]) (still (.sent .shipping) rfl)
    | notifications => rfl
  constructor
  · intro queue
    by_contra waiting
    exact still (.take queue) rfl ⟨idle queue, waiting⟩
  · exact idle
  · by_contra laddered
    rcases Multiset.exists_mem_of_ne_zero laddered with ⟨message, member⟩
    exact still (.retry message) rfl member

end Services

/-- The steps that the services have taken and those that they can still take are at most
twenty-one for each publish of the relay. -/
theorem work_le_relayed {terms : Lease.Terms Nat} {Allowed : Services → ServicesStep → Prop}
    {actions : List ServicesStep} {state : Services}
    (ran : (services terms).Ran Allowed actions state) :
    actions.countP ServicesStep.own + state.work ≤ 21 * actions.countP ServicesStep.relays := by
  have bound := ran.taken_le ServicesStep.own ServicesStep.relays Services.work 0 21
    (by
      rintro _ rfl
      simp [Services.initial, Services.work, Services.queued, Services.awaits])
    (fun state step reached own enabled => Services.work_step (.of_reached reached) own enabled)
    (fun state step given _ => (Services.work_given given).le)
  omega

/-- Left to themselves the services come to rest, whichever of them goes first: over a
whole run they take at most twenty-one steps for each publish of the relay, and only where no
message is left on a queue, on the ladder or in hand can they take no more. -/
theorem services_settle {terms : Lease.Terms Nat} {Allowed : Services → ServicesStep → Prop}
    {actions : List ServicesStep} {state : Services}
    (ran : (services terms).Ran Allowed actions state) :
    (∀ more last,
      (services terms).Leads (TransitionSystem.byItself (·.own = true)) state more last →
      actions.countP ServicesStep.own + more.length ≤
        21 * actions.countP ServicesStep.relays ∧
      ((services terms).Still (TransitionSystem.byItself (·.own = true)) last → last.AtRest)) ∧
    ∃ more last,
      (services terms).Leads (TransitionSystem.byItself (·.own = true)) state more last ∧
        last.AtRest := by
  have underway : Services.Underway state := .of_reached ran.reached
  have down := Services.runsDown terms
  constructor
  · intro more last path
    have bound := work_le_relayed ran
    have taken := down.length_le path underway
    exact ⟨by omega, Services.atRest_of_still (down.known path underway)⟩
  · rcases down.settles underway with ⟨more, last, path, known, still⟩
    exact ⟨more, last, path, Services.atRest_of_still known still⟩

/-- An order relayed twice makes for forty-two steps at most. -/
theorem duplicate_settles : ∃ state : Services,
    (∀ more last,
      (services chargedTerms).Leads (TransitionSystem.byItself (·.own = true)) state more last →
      1 + more.length ≤ 42) ∧
    ∃ more last,
      (services chargedTerms).Leads (TransitionSystem.byItself (·.own = true)) state more last ∧
        last.AtRest := by
  have settles := services_settle (.of_isSome_run (services chargedTerms) TransitionSystem.anyStep
    rfl [.place widget.order, .relay widget.order, .relay widget.order, .take .payments]
    (by decide +kernel))
  exact ⟨_, fun more last path => (settles.1 more last path).1, settles.2⟩

end AmqpApps.Fulfilment
