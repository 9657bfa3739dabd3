import AmqpApps.Fulfilment.HandledAgain
import Mathlib.Algebra.Order.BigOperators.Group.List
import Mathlib.Algebra.Order.BigOperators.Group.Multiset

/-! # The warehouse never oversells

`_reserve` looks at the stock and takes from it with no await in between. What it has
taken it publishes afterwards, or not.
-/

namespace AmqpApps.Fulfilment

def Decision.NamesStock (decision : Decision) : Prop :=
  ∀ event, decision.outcome = .unavailable event →
    event.reason = s!"only {decision.available} left" ∧
      decision.available < decision.payment.quantity

private theorem InventoryService.decisions_nameStock {service : InventoryService}
    {payment : PaymentCaptured} :
    ∀ decision ∈ service.decisions payment, decision.NamesStock := by
  intro decision decided event refused
  rw [decisions, reserve] at decided
  by_cases fails : service.warehouseCalls + 1 ≤ service.failuresToSimulate
  · simp [fails] at decided
  · by_cases short : service.stock.of payment.sku < payment.quantity
    · simp only [fails, short, if_true, if_false, List.mem_singleton] at decided
      subst decided
      cases refused
      exact ⟨rfl, short⟩
    · simp only [fails, short, if_false, List.mem_singleton] at decided
      subst decided
      cases refused

namespace Inventory

/-- The outcome has been published, or is to be, or was lost with its publish. -/
def Holds (state : Inventory) (outcome : StockOutcome) : Prop :=
  outcome ∈ state.outcomes ∨ (∃ call ∈ state.calls, call.outcome = outcome) ∨
    outcome ∈ state.history.failed

private theorem holds_perform {state : Inventory} {action : InventoryAction}
    {outcome : StockOutcome}
    (enabled : state.Enabled action) (holds : (state.perform action).Holds outcome) :
    state.Holds outcome ∨ ∃ payment correlation, action = .deliver payment correlation ∧
      (state.service.reserve payment).2 = .ok outcome := by
  cases action with
  | withStock sku quantity => exact .inl holds
  | withFlakyWarehouse count => exact .inl holds
  | deliver payment correlation =>
      cases ran : (state.service.reserve payment).2 with
      | error error =>
          simp only [perform, ran] at holds
          exact .inl holds
      | ok decided =>
          simp only [perform, ran] at holds
          rcases holds with published | ⟨call, member, same⟩ | failed
          · exact .inl (.inl published)
          · rcases Multiset.mem_cons.mp member with now | before
            · rw [now] at same
              exact .inr ⟨payment, correlation, rfl, by rw [ran, ← same]⟩
            · exact .inl (.inr (.inl ⟨call, before, same⟩))
          · exact .inl (.inr (.inr failed))
  | publish call =>
      left
      rcases holds with published | ⟨other, member, same⟩ | failed
      · simp only [perform, outcomes, List.map_append, List.map_cons, List.map_nil,
          List.mem_append, List.mem_singleton] at published
        rcases published with before | now
        · exact .inl before
        · exact .inr (.inl ⟨call, enabled.1, now.symm⟩)
      · rcases Multiset.mem_cons.mp member with now | before
        · rw [now] at same
          exact .inr (.inl ⟨call, enabled.1, same⟩)
        · exact .inr (.inl ⟨other, Multiset.mem_of_mem_erase before, same⟩)
      · exact .inr (.inr failed)
  | sent call =>
      left
      rcases holds with published | ⟨other, member, same⟩ | failed
      · exact .inl published
      · exact .inr (.inl ⟨other, Multiset.mem_of_mem_erase member, same⟩)
      · exact .inr (.inr failed)
  | raise call =>
      left
      rcases holds with published | ⟨other, member, same⟩ | failed
      · exact .inl published
      · exact .inr (.inl ⟨other, Multiset.mem_of_mem_erase member, same⟩)
      · rcases List.mem_append.mp failed with before | now
        · exact .inr (.inr before)
        · cases out : call.out with
          | true => simp [out] at now
          | false =>
              simp only [out, Bool.false_eq_true, if_false, List.mem_singleton] at now
              exact .inr (.inl ⟨call, enabled, now.symm⟩)

end Inventory

/-! ## The onlooker -/

structure Watched where
  inventory : Inventory
  decisions : List Decision

namespace Watched

def initial : Watched := ⟨.initial, []⟩

def perform (state : Watched) (action : InventoryAction) : Watched where
  inventory := state.inventory.perform action
  decisions := state.decisions ++
    match action with
    | .deliver payment _ => state.inventory.service.decisions payment
    | _ => []

end Watched

def watchedInventory : TransitionSystem Watched InventoryAction where
  Initial state := state = Watched.initial
  Enabled state := state.inventory.Enabled
  perform := Watched.perform

instance (state : Watched) (action : InventoryAction) :
    Decidable (watchedInventory.Enabled state action) :=
  inferInstanceAs (Decidable (state.inventory.Enabled action))

/-- The SKU is stocked once, and nobody orders less than nothing of it. -/
def StockedWith (sku : String) (stocked : Int) (state : Watched) : InventoryAction → Prop
  | .withStock other quantity =>
      other = sku →
        quantity = stocked ∧ sku ∉ state.inventory.history.stocked.map Prod.fst
  | .deliver payment _ => payment.sku = sku → 0 ≤ payment.quantity
  | _ => True

instance (sku : String) (stocked : Int) (state : Watched) (action : InventoryAction) :
    Decidable (StockedWith sku stocked state action) := by
  rcases action with ⟨⟩ <;> unfold StockedWith <;> infer_instance

/-! ## The invariant -/

structure WithinStock (sku : String) (stocked : Int) (state : Inventory) : Prop where
  stock : 0 ≤ state.service.stockOf sku
  outcomes : ∀ outcome, state.Holds outcome → 0 ≤ outcome.quantityOf sku
  unstocked : sku ∉ state.history.stocked.map Prod.fst →
    state.service.stockOf sku + state.taken sku = 0
  balance : sku ∈ state.history.stocked.map Prod.fst →
    state.service.stockOf sku + state.taken sku = stocked

/-- Every outcome was decided, and every refusal says what stock it found. -/
structure Explained (state : Watched) : Prop where
  decided : ∀ outcome, state.inventory.Holds outcome →
    ∃ decision ∈ state.decisions, decision.outcome = outcome
  named : ∀ decision ∈ state.decisions, decision.NamesStock

private theorem quantity_nonneg {sku : String} {outcomes : List StockOutcome}
    (nonneg : ∀ outcome ∈ outcomes, 0 ≤ outcome.quantityOf sku) : 0 ≤ quantity sku outcomes := by
  apply List.sum_nonneg
  intro amount member
  rcases List.mem_map.mp member with ⟨outcome, present, rfl⟩
  exact nonneg outcome present

namespace WithinStock

variable {sku : String} {stocked : Int} {state : Inventory}

private theorem initial : WithinStock sku stocked .initial where
  stock := le_rfl
  outcomes := by simp [Inventory.Holds, Inventory.outcomes, Inventory.initial]
  unstocked _ := rfl
  balance := by simp [Inventory.initial]

private theorem published_nonneg (within : WithinStock sku stocked state) :
    0 ≤ quantity sku state.outcomes :=
  quantity_nonneg fun outcome member => within.outcomes outcome (.inl member)

private theorem failed_nonneg (within : WithinStock sku stocked state) :
    0 ≤ quantity sku state.history.failed :=
  quantity_nonneg fun outcome member => within.outcomes outcome (.inr (.inr member))

private theorem unpublished_nonneg (within : WithinStock sku stocked state) :
    0 ≤ unpublished sku state.calls := by
  apply Multiset.sum_nonneg
  intro amount member
  rcases Multiset.mem_map.mp member with ⟨call, present, rfl⟩
  split
  · exact le_rfl
  · exact within.outcomes call.outcome (.inr (.inl ⟨call, present, rfl⟩))

/-- What was stocked bounds what ever gets out, now or with a publish that raised. -/
theorem bounded (within : WithinStock sku stocked state) (nonneg : 0 ≤ stocked) :
    quantity sku state.outcomes + quantity sku state.history.failed ≤ stocked := by
  have stock := within.stock
  have unpublished := within.unpublished_nonneg
  by_cases known : sku ∈ state.history.stocked.map Prod.fst
  · have balance := within.balance known
    rw [Inventory.taken] at balance
    omega
  · have balance := within.unstocked known
    rw [Inventory.taken] at balance
    omega

private theorem nothing (within : WithinStock sku stocked state)
    (unknown : sku ∉ state.history.stocked.map Prod.fst) : state.taken sku = 0 := by
  have stock := within.stock
  have published := within.published_nonneg
  have unpublished := within.unpublished_nonneg
  have failed := within.failed_nonneg
  have balance := within.unstocked unknown
  rw [Inventory.taken] at balance ⊢
  omega

private theorem withStock (within : WithinStock sku stocked state) (nonneg : 0 ≤ stocked)
    (once : sku ∉ state.history.stocked.map Prod.fst) :
    WithinStock sku stocked (state.perform (.withStock sku stocked)) := by
  have all : (state.perform (.withStock sku stocked)).service.stockOf sku = stocked :=
    Tally.of_insert_self ..
  have taken : (state.perform (.withStock sku stocked)).taken sku = 0 := within.nothing once
  constructor
  · rw [all]
    exact nonneg
  · exact within.outcomes
  · intro unknown
    simp [Inventory.perform] at unknown
  · intro _
    rw [all, taken, add_zero]

private theorem stock_deliver (within : WithinStock sku stocked state) {payment : PaymentCaptured}
    (fair : payment.sku = sku → 0 ≤ payment.quantity) :
    0 ≤ (state.service.reserve payment).1.stockOf sku := by
  have stock := within.stock
  by_cases answers : state.service.Answers
  · rcases InventoryService.decisions_of_answer payment answers with
      ⟨decision, -, -, -, -, -, changed⟩
    rw [changed]
    split
    · by_cases same : payment.sku = sku
      · subst same
        rw [amountFor_self]
        omega
      · rw [amountFor_other _ same, sub_zero]
        exact stock
    · rw [sub_zero]
      exact stock
  · rw [InventoryService.stockOf, (state.service.reserve_of_silent payment answers).2]
    exact stock

private theorem stock_perform (within : WithinStock sku stocked state) {action : InventoryAction}
    (unstocked : ∀ quantity, action ≠ .withStock sku quantity)
    (fair : ∀ payment correlation, action = .deliver payment correlation →
      payment.sku = sku → 0 ≤ payment.quantity) :
    0 ≤ (state.perform action).service.stockOf sku := by
  cases action with
  | withStock other quantity =>
      have different : sku ≠ other := by
        rintro rfl
        exact unstocked quantity rfl
      simp only [Inventory.perform, InventoryService.withStock, InventoryService.stockOf,
        Tally.of_insert_other _ _ different]
      exact within.stock
  | deliver payment correlation =>
      have left := within.stock_deliver (fair payment correlation rfl)
      simp only [Inventory.perform]
      split <;> exact left
  | sent call =>
      simp only [Inventory.perform, InventoryService.sent]
      cases call.outcome <;> exact within.stock
  | _ => exact within.stock

private theorem kept (within : WithinStock sku stocked state) (nonneg : 0 ≤ stocked)
    {action : InventoryAction} (enabled : state.Enabled action)
    (once : ∀ quantity, action = .withStock sku quantity →
      quantity = stocked ∧ sku ∉ state.history.stocked.map Prod.fst)
    (fair : ∀ payment correlation, action = .deliver payment correlation →
      payment.sku = sku → 0 ≤ payment.quantity) :
    WithinStock sku stocked (state.perform action) := by
  by_cases stocks : ∃ quantity, action = .withStock sku quantity
  · rcases stocks with ⟨quantity, rfl⟩
    rcases once quantity rfl with ⟨rfl, unknown⟩
    exact within.withStock nonneg unknown
  · have unstocked : ∀ quantity, action ≠ .withStock sku quantity :=
      fun quantity same => stocks ⟨quantity, same⟩
    have balance := state.balance sku enabled unstocked
    have stocked_iff : sku ∈ (state.perform action).history.stocked.map Prod.fst ↔
        sku ∈ state.history.stocked.map Prod.fst := by
      simp only [List.mem_map, Prod.exists, exists_and_right, exists_eq_right,
        Inventory.stocked_perform unstocked]
    constructor
    · exact within.stock_perform unstocked fair
    · intro outcome holds
      rcases Inventory.holds_perform enabled holds with
        before | ⟨payment, correlation, delivered, decided⟩
      · exact within.outcomes outcome before
      · rcases state.service.reserve_cases payment with
          ⟨error, ran, -⟩ | ⟨event, ran, -⟩ | ⟨ran, -⟩
        · rw [ran] at decided
          cases decided
        · rw [ran] at decided
          cases decided
          exact le_rfl
        · rw [ran] at decided
          cases decided
          rw [StockOutcome.quantityOf]
          by_cases same : payment.sku = sku
          · rw [same, amountFor_self]
            exact fair payment correlation delivered same
          · rw [amountFor_other _ same]
    · intro unknown
      rw [balance]
      exact within.unstocked fun known => unknown (stocked_iff.mpr known)
    · intro known
      rw [balance]
      exact within.balance (stocked_iff.mp known)

end WithinStock

namespace Explained

variable {state : Watched}

private theorem initial : Explained .initial where
  decided := by simp [Watched.initial, Inventory.Holds, Inventory.outcomes, Inventory.initial]
  named := by simp [Watched.initial]

private theorem kept (explained : Explained state) {action : InventoryAction}
    (enabled : state.inventory.Enabled action) : Explained (state.perform action) where
  decided outcome holds := by
    rcases Inventory.holds_perform enabled holds with
      before | ⟨payment, correlation, rfl, decided⟩
    · rcases explained.decided outcome before with ⟨decision, member, same⟩
      exact ⟨decision, List.mem_append_left _ member, same⟩
    · refine ⟨⟨payment, state.inventory.service.stockOf payment.sku, outcome⟩,
        List.mem_append_right _ ?_, rfl⟩
      simp only [InventoryService.decisions, decided, List.mem_singleton]
  named decision member := by
    rcases List.mem_append.mp member with before | now
    · exact explained.named decision before
    · cases action with
      | deliver payment correlation => exact InventoryService.decisions_nameStock decision now
      | _ => simp at now

end Explained

/-- A SKU that is stocked once is never oversold: its stock is never below zero, and the
reservations that get out, with their sends or later, never exceed what was stocked. A
refusal says what the stock was when it was decided, and that was too little. -/
theorem never_oversold {sku : String} {stocked : Int} {state : Watched} (nonneg : 0 ≤ stocked)
    (reached : watchedInventory.Reached (StockedWith sku stocked) state) :
    0 ≤ state.inventory.service.stockOf sku ∧
      quantity sku state.inventory.outcomes ≤ stocked ∧
      quantity sku state.inventory.outcomes + quantity sku state.inventory.history.failed ≤
        stocked ∧
      ∀ event, state.inventory.Holds (.unavailable event) →
        ∃ decision ∈ state.decisions, decision.outcome = .unavailable event ∧
          event.reason = s!"only {decision.available} left" ∧
          decision.available < decision.payment.quantity := by
  have within : WithinStock sku stocked state.inventory := by
    apply reached.invariant fun state => WithinStock sku stocked state.inventory
    · intro _ first
      cases first
      exact .initial
    · intro state action within once enabled
      apply within.kept nonneg enabled
      · rintro quantity rfl
        exact once rfl
      · rintro payment correlation rfl
        exact once
  have explained : Explained state :=
    reached.invariant Explained (fun _ first => by cases first; exact .initial)
      fun _ _ explained _ enabled => explained.kept enabled
  have failed := within.failed_nonneg
  have bounded := within.bounded nonneg
  refine ⟨within.stock, by omega, bounded, ?_⟩
  intro event holds
  rcases explained.decided _ holds with ⟨decision, member, same⟩
  exact ⟨decision, member, same, explained.named decision member event same⟩

def reserveSix : Reservation :=
  ⟨.reserved ⟨"order-1", "ada", "WIDGET", 6⟩, "order-1", false⟩

/-- Two calls at once for six of ten, of which one comes too late; the other's publish
raises although its event is out, and its message is refused when it comes again. -/
theorem two_of_six_from_ten : ∃ state : Watched,
    state.inventory.calls.card = 2 ∧ quantity "WIDGET" state.inventory.outcomes = 6 ∧
      state.decisions.map Decision.available = [10, 4, 4] ∧
      0 ≤ state.inventory.service.stockOf "WIDGET" ∧
      quantity "WIDGET" state.inventory.outcomes ≤ 10 := by
  have reached : watchedInventory.Reached (StockedWith "WIDGET" 10) _ :=
    .of_run [.withStock "WIDGET" 10, .deliver ⟨"order-1", "ada", "WIDGET", 6, 60⟩ "order-1",
      .deliver ⟨"order-2", "bob", "WIDGET", 6, 60⟩ "order-2", .publish reserveSix,
      .raise { reserveSix with out := true },
      .deliver ⟨"order-1", "ada", "WIDGET", 6, 60⟩ "order-1"] (.start rfl) rfl
  have never := never_oversold (by decide) reached
  exact ⟨_, by decide, by decide, by decide, never.1, never.2.1⟩

end AmqpApps.Fulfilment
