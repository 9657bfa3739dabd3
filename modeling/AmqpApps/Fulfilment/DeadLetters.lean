import AmqpApps.Foundation.Runs
import AmqpApps.Fulfilment.Traffic

/-! # How many payments a flaky warehouse costs

A payment is dead-lettered at the fourth call that the warehouse fails for it, and the
warehouse fails no more calls than it was told to.
-/

namespace AmqpApps.Fulfilment

/-- `with_flaky_warehouse` is called with no more than a limit. -/
def FlakyUpTo (limit : Nat) (_ : Services) : ServicesStep → Prop
  | .withFlakyWarehouse count => count ≤ limit
  | _ => True

instance (limit : Nat) (state : Services) (step : ServicesStep) :
    Decidable (FlakyUpTo limit state step) := by
  rcases step with ⟨⟩ <;> unfold FlakyUpTo <;> infer_instance

namespace Carried

def failures (message : Carried) : Nat := message.attempt - 1

/-- A message has been tried for the last time at the most. -/
def Tried (message : Carried) : Prop := 1 ≤ message.attempt ∧ message.attempt ≤ retryAttempts

end Carried

namespace InventoryService

theorem reserve_counts (service : InventoryService) (payment : PaymentCaptured) :
    (service.reserve payment).1.warehouseCalls = service.warehouseCalls + 1 ∧
      (service.reserve payment).1.failuresToSimulate = service.failuresToSimulate ∧
      ∀ error, (service.reserve payment).2 = .error error →
        service.warehouseCalls + 1 ≤ service.failuresToSimulate := by
  by_cases fails : service.warehouseCalls + 1 ≤ service.failuresToSimulate
  · have raised : service.reserve payment =
        ({ service with warehouseCalls := service.warehouseCalls + 1 },
          .error ⟨"warehouse did not respond"⟩) := if_pos fails
    rw [raised]
    exact ⟨rfl, rfl, fun _ _ => fails⟩
  · rw [reserve]
    simp only [fails, if_false]
    split
    · exact ⟨rfl, rfl, fun error raised => by cases raised⟩
    · exact ⟨rfl, rfl, fun error raised => by cases raised⟩

end InventoryService

namespace Services

variable {terms : Lease.Terms Nat} {state next : Services} {message : Carried} {limit : Nat}

/-- The calls that have failed for the messages that are not decided on: for those still to
be tried, and for those given up. -/
def failures (state : Services) : Nat :=
  ((state.queues .inventory).map Carried.failures).sum +
    (state.ladder.map Carried.failures).sum + (state.deadLetters.map Carried.attempt).sum

/-- The failed calls are among those that the warehouse was to fail. -/
structure Spared (limit : Nat) (state : Services) : Prop where
  counted : (state.failures : Int) ≤ state.inventory.warehouseCalls
  simulated : state.failures ≤ limit
  threshold : state.inventory.failuresToSimulate ≤ limit
  queued : ∀ message ∈ state.queues .inventory, message.Tried
  laddered : ∀ message ∈ state.ladder, message.Tried
  givenUp : ∀ message ∈ state.deadLetters, message.attempt = retryAttempts

namespace Spared

private theorem initial : Spared limit .initial where
  counted := by simp [failures, Services.initial, InventoryService.new]
  simulated := by simp [failures, Services.initial]
  threshold := by simp [Services.initial, InventoryService.new]
  queued := by simp [Services.initial]
  laddered := by simp [Services.initial]
  givenUp := by simp [Services.initial]

private theorem of_same (spared : Spared limit state)
    (queue : next.queues .inventory = state.queues .inventory)
    (ladder : next.ladder = state.ladder) (deadLetters : next.deadLetters = state.deadLetters)
    (calls : next.inventory.warehouseCalls = state.inventory.warehouseCalls)
    (threshold : next.inventory.failuresToSimulate ≤ limit) : Spared limit next where
  counted := by
    rw [failures, queue, ladder, deadLetters, calls]
    exact spared.counted
  simulated := by
    rw [failures, queue, ladder, deadLetters]
    exact spared.simulated
  threshold := threshold
  queued := by
    rw [queue]
    exact spared.queued
  laddered := by
    rw [ladder]
    exact spared.laddered
  givenUp := by
    rw [deadLetters]
    exact spared.givenUp

private theorem post (spared : Spared limit state) (post : Post) :
    Spared limit (state.post post) := by
  have queue : (state.post post).queues .inventory = state.queues .inventory ∨
      (state.post post).queues .inventory = state.queues .inventory ++ [⟨post, 1⟩] := by
    simp only [Services.post, route]
    split
    · exact .inr rfl
    · exact .inl rfl
  rcases queue with same | longer
  · exact spared.of_same same rfl rfl rfl spared.threshold
  · have share : (state.post post).failures = state.failures := by
      simp only [failures, longer]
      simp [Services.post, Carried.failures]
    exact {
      counted := by
        rw [share]
        exact spared.counted
      simulated := by
        rw [share]
        exact spared.simulated
      threshold := spared.threshold
      queued := by
        rw [longer]
        intro message member
        rcases List.mem_append.mp member with before | now
        · exact spared.queued message before
        · rw [List.mem_singleton.mp now]
          exact ⟨Nat.le_refl 1, show 1 ≤ 4 by decide⟩
      laddered := spared.laddered
      givenUp := spared.givenUp }

private theorem failures_retryLater {rest : List Carried} (inventory : InventoryService)
    (waiting : state.queues .inventory = message :: rest) (tried : message.Tried) :
    (retryLater { state with
      queues := Function.update state.queues .inventory rest, inventory } message).failures =
        state.failures + 1 := by
  rcases tried with ⟨begun, allowed⟩
  unfold retryLater
  split
  · simp only [failures, waiting, Function.update_self, Multiset.map_cons, Multiset.sum_cons,
      List.map_cons, List.sum_cons, Carried.failures]
    omega
  · simp only [failures, waiting, Function.update_self, Multiset.map_cons, Multiset.sum_cons,
      List.map_cons, List.sum_cons, Carried.failures]
    omega

private theorem raise (spared : Spared limit state) {rest : List Carried}
    {payment : PaymentCaptured}
    {error : TimeoutError} (waiting : state.queues .inventory = message :: rest)
    (raised : (state.inventory.reserve payment).2 = .error error) :
    Spared limit (retryLater { state with
      queues := Function.update state.queues .inventory rest
      inventory := (state.inventory.reserve payment).1 } message) := by
  have members : ∀ other ∈ message :: rest, other.Tried := by
    rw [← waiting]
    exact spared.queued
  have tried := members message List.mem_cons_self
  have more := failures_retryLater (state.inventory.reserve payment).1 waiting tried
  rcases state.inventory.reserve_counts payment with ⟨calls, threshold, within⟩
  have fails := within error raised
  have counted := spared.counted
  have allowed := spared.threshold
  have sameService : ∀ moved : Services, (moved.retryLater message).inventory =
      moved.inventory := by
    intro moved
    unfold retryLater
    split <;> rfl
  constructor
  · rw [more, sameService, calls]
    push_cast
    omega
  · rw [more]
    omega
  · rw [sameService, threshold]
    exact allowed
  · intro other member
    simp only [retryLater_queues, Function.update_self] at member
    exact members other (List.mem_cons_of_mem _ member)
  · intro other member
    unfold retryLater at member
    split at member
    · rename_i again
      rcases Multiset.mem_cons.mp member with same | before
      · rw [same]
        exact ⟨Nat.le_add_left 1 _, again⟩
      · exact spared.laddered other before
    · exact spared.laddered other member
  · intro other member
    unfold retryLater at member
    split at member
    · exact spared.givenUp other member
    · rename_i last
      rcases Multiset.mem_cons.mp member with same | before
      · rw [same]
        exact Nat.le_antisymm tried.2 (Nat.not_lt.mp last)
      · exact spared.givenUp other before

private theorem answer (spared : Spared limit state) {rest : List Carried}
    {payment : PaymentCaptured}
    {reserving : Option Reservation} (waiting : state.queues .inventory = message :: rest) :
    Spared limit { state with
      queues := Function.update state.queues .inventory rest
      inventory := (state.inventory.reserve payment).1
      reserving } := by
  have members : ∀ other ∈ message :: rest, other.Tried := by
    rw [← waiting]
    exact spared.queued
  have fewer : failures { state with
      queues := Function.update state.queues .inventory rest
      inventory := (state.inventory.reserve payment).1
      reserving } + message.failures = state.failures := by
    simp only [failures, Function.update_self, waiting, List.map_cons, List.sum_cons]
    omega
  rcases state.inventory.reserve_counts payment with ⟨calls, threshold, -⟩
  have counted := spared.counted
  have simulated := spared.simulated
  constructor
  · rw [calls]
    omega
  · omega
  · rw [threshold]
    exact spared.threshold
  · intro other member
    simp only [Function.update_self] at member
    exact members other (List.mem_cons_of_mem _ member)
  · exact spared.laddered
  · exact spared.givenUp

private theorem retry (spared : Spared limit state) (laddered : message ∈ state.ladder) :
    Spared limit (state.perform terms (.retry message)) := by
  have share := Multiset.sum_map_erase (f := Carried.failures) laddered
  have same : (state.perform terms (.retry message)).failures = state.failures := by
    simp only [failures, perform, Function.update_self, List.map_append, List.sum_append,
      List.map_cons, List.map_nil, List.sum_singleton]
    omega
  exact {
    counted := by
      rw [same]
      exact spared.counted
    simulated := by
      rw [same]
      exact spared.simulated
    threshold := spared.threshold
    queued := by
      intro other member
      simp only [perform, Function.update_self] at member
      rcases List.mem_append.mp member with before | now
      · exact spared.queued other before
      · rw [List.mem_singleton.mp now]
        exact spared.laddered message laddered
    laddered := fun other member => spared.laddered other (Multiset.mem_of_mem_erase member)
    givenUp := spared.givenUp }

private theorem take (spared : Spared limit state) {queue : Queue} {rest : List Carried}
    (fits : state.Fits queue message) (waiting : state.queues queue = message :: rest) :
    Spared limit
      (handle { state with queues := Function.update state.queues queue rest } message queue) := by
  have elsewhere : queue ≠ .inventory →
      Function.update state.queues queue rest .inventory = state.queues .inventory :=
    fun other => Function.update_of_ne other.symm rest state.queues
  cases queue with
  | payments =>
      rcases Event.placed_of_routed fits.2 with ⟨order, event⟩
      rw [handle_placed event]
      exact spared.of_same (elsewhere (by decide)) rfl rfl rfl spared.threshold
  | inventory =>
      rcases Event.captured_of_routed fits.2 with ⟨payment, event⟩
      simp only [handle, event]
      cases ran : (state.inventory.reserve payment).2 with
      | error error => exact spared.raise waiting ran
      | ok outcome => exact spared.answer waiting
  | shipping =>
      rcases Event.reserved_of_routed fits.2 with ⟨reservation, event⟩
      rw [handle_reserved event]
      exact spared.of_same (elsewhere (by decide)) rfl rfl rfl spared.threshold
  | notifications => exact spared.of_same (elsewhere (by decide)) rfl rfl rfl spared.threshold

private theorem step {step : ServicesStep} (spared : Spared limit state) (honest : Honest state)
    (allowed : FlakyUpTo limit state step) (enabled : state.Enabled step) :
    Spared limit (state.perform terms step) := by
  cases step with
  | withFlakyWarehouse count =>
      exact { spared with threshold := allowed }
  | relay order => exact spared.post _
  | publish service =>
      rcases Option.isSome_iff_exists.mp enabled with ⟨post, outgoing⟩
      have marked : Spared limit (state.markOut service) := by
        apply spared.of_same
        · rw [markOut_queues]
        · rw [markOut_ladder]
        · rw [markOut_deadLetters]
        · cases service <;> rfl
        · have threshold := spared.threshold
          cases service <;> exact threshold
      simp only [perform, outgoing]
      exact marked.post post
  | take queue =>
      rcases List.exists_cons_of_ne_nil enabled.2 with ⟨message, rest, waiting⟩
      simp only [perform, waiting]
      exact spared.take (honest.pop waiting).1 waiting
  | retry message => exact spared.retry enabled
  | place order => exact spared.of_same rfl rfl rfl rfl spared.threshold
  | withStock sku quantity => exact spared.of_same rfl rfl rfl rfl spared.threshold
  | pass duration => exact spared.of_same rfl rfl rfl rfl spared.threshold
  | claim =>
      have still := quiet terms enabled id
      refine spared.of_same (by rw [still.queues]) still.ladder still.deadLetters ?_ ?_
      · simp only [perform]
        repeat' split
        all_goals rfl
      · have threshold := spared.threshold
        simp only [perform]
        repeat' split
        all_goals exact threshold
  | confirm =>
      have still := quiet terms enabled id
      refine spared.of_same (by rw [still.queues]) still.ladder still.deadLetters ?_ ?_
      · simp only [perform]
        split <;> rfl
      · have threshold := spared.threshold
        simp only [perform]
        split <;> exact threshold
  | sent service =>
      have still := quiet terms enabled id
      have sameService : ∀ outcome, (state.inventory.sent outcome).warehouseCalls =
            state.inventory.warehouseCalls ∧
          (state.inventory.sent outcome).failuresToSimulate =
            state.inventory.failuresToSimulate := by
        intro outcome
        cases outcome <;> exact ⟨rfl, rfl⟩
      have threshold := spared.threshold
      refine spared.of_same (by rw [still.queues]) still.ladder still.deadLetters ?_ ?_
      · cases service <;> simp only [perform] <;> repeat' split
        all_goals first | rfl | exact (sameService _).1
      · cases service <;> simp only [perform] <;> repeat' split
        all_goals first | exact threshold | (rw [(sameService _).2]; exact threshold)

theorem of_reached (reached : (services terms).Reached (FlakyUpTo limit) state) :
    Spared limit state :=
  reached.invariant_using Honest (Spared limit) (fun _ => Honest.of_reached)
    (fun _ first => by cases first; exact initial)
    fun _ _ honest spared allowed enabled => spared.step honest allowed enabled

end Spared

/-- The dead letters make up four failed calls each. -/
theorem attempts_deadLetters (spared : Spared limit state) :
    (state.deadLetters.map Carried.attempt).sum = 4 * state.deadLetters.card := by
  have alike : state.deadLetters.map Carried.attempt =
      state.deadLetters.map fun _ => retryAttempts :=
    Multiset.map_congr rfl spared.givenUp
  rw [alike, Multiset.map_const', Multiset.sum_replicate]
  exact Nat.mul_comm _ _

end Services

end AmqpApps.Fulfilment
