import AmqpApps.Fulfilment.Shipping
import AmqpApps.Fulfilment.StockConservation

/-! # Messages handled again

`_reserve` and `_dispatch` keep no record of the orders they have handled. Beside
the inventory runs another one that is given each message once; what a repetition
changes is what the two differ by.
-/

namespace AmqpApps.Fulfilment

structure Decision where
  payment : PaymentCaptured
  available : Int
  outcome : StockOutcome
deriving DecidableEq

def Decision.Sound (decision : Decision) : Prop :=
  decision.outcome.orderId = decision.payment.orderId ∧
    (decision.outcome.isReserved = true ↔ decision.payment.quantity ≤ decision.available)

namespace InventoryService

/-- What `_reserve` decides about a message, if the warehouse answers. -/
def decisions (service : InventoryService) (payment : PaymentCaptured) : List Decision :=
  match (service.reserve payment).2 with
  | .error _ => []
  | .ok outcome => [⟨payment, service.stockOf payment.sku, outcome⟩]

private theorem decisions_of_silent {service : InventoryService} (payment : PaymentCaptured)
    (silent : ¬service.Answers) : service.decisions payment = [] := by
  rcases service.reserve_of_silent payment silent with ⟨⟨error, raised⟩, -⟩
  rw [decisions, raised]

theorem decisions_of_answer {service : InventoryService} (payment : PaymentCaptured)
    (answers : service.Answers) :
    ∃ decision : Decision, service.decisions payment = [decision] ∧
      decision.payment = payment ∧ decision.available = service.stockOf payment.sku ∧
      decision.Sound ∧ (service.reserve payment).2 = .ok decision.outcome ∧
      ∀ sku, (service.reserve payment).1.stockOf sku = service.stockOf sku -
        if payment.quantity ≤ service.stockOf payment.sku then
          amountFor sku (payment.sku, payment.quantity)
        else 0 := by
  have succeeds : ¬service.warehouseCalls + 1 ≤ service.failuresToSimulate := not_le.mpr answers
  by_cases short : service.stock.of payment.sku < payment.quantity
  · have enough : ¬payment.quantity ≤ service.stockOf payment.sku := not_le.mpr short
    let refusal : StockOutcome := .unavailable ⟨payment.orderId, payment.customer, payment.sku,
      s!"only {service.stock.of payment.sku} left"⟩
    have ran : service.reserve payment =
        ({ service with warehouseCalls := service.warehouseCalls + 1 }, .ok refusal) := by
      simp only [reserve, succeeds, short, if_true, if_false, refusal]
    refine ⟨⟨payment, service.stockOf payment.sku, refusal⟩, ?_, rfl, rfl, ?_, ?_, ?_⟩
    · rw [decisions, ran]
    · exact ⟨rfl, by simp [refusal, StockOutcome.isReserved, enough]⟩
    · rw [ran]
    · intro sku
      rw [ran, if_neg enough, sub_zero]
      rfl
  · have enough : payment.quantity ≤ service.stockOf payment.sku := not_lt.mp short
    let reservation : StockOutcome := .reserved
      ⟨payment.orderId, payment.customer, payment.sku, payment.quantity⟩
    let left := service.stock.insert payment.sku (service.stock.of payment.sku - payment.quantity)
    have ran : service.reserve payment =
        ({ service with warehouseCalls := service.warehouseCalls + 1, stock := left },
          .ok reservation) := by
      simp only [reserve, succeeds, short, if_false, left, reservation]
    refine ⟨⟨payment, service.stockOf payment.sku, reservation⟩, ?_, rfl, rfl, ?_, ?_, ?_⟩
    · rw [decisions, ran]
    · exact ⟨rfl, by simp [reservation, StockOutcome.isReserved, enough]⟩
    · rw [ran]
    · intro sku
      rw [ran, if_pos enough]
      by_cases same : sku = payment.sku
      · subst same
        rw [amountFor_self]
        exact Tally.of_insert_self ..
      · have different : payment.sku ≠ sku := fun equal => same equal.symm
        rw [amountFor_other _ different, sub_zero]
        exact Tally.of_insert_other _ _ same

theorem reserve_warehouse (service : InventoryService) (payment : PaymentCaptured) :
    (service.reserve payment).1.failuresToSimulate = service.failuresToSimulate ∧
      (service.reserve payment).1.warehouseCalls = service.warehouseCalls + 1 := by
  rw [reserve]
  simp only
  split
  · exact ⟨rfl, rfl⟩
  · split <;> exact ⟨rfl, rfl⟩

end InventoryService

namespace Inventory

theorem deliver_of_silent {state : Inventory} (payment : PaymentCaptured) (correlation : String)
    (silent : ¬state.service.Answers) :
    state.perform (.deliver payment correlation) =
        { state with service := (state.service.reserve payment).1 } ∧
      (state.service.reserve payment).1.stock = state.service.stock := by
  rcases state.service.reserve_of_silent payment silent with ⟨⟨error, raised⟩, same⟩
  exact ⟨by simp only [perform, raised], same⟩

private theorem deliver_of_answer {state : Inventory} {payment : PaymentCaptured}
    {decision : Decision}
    (correlation : String)
    (decided : (state.service.reserve payment).2 = .ok decision.outcome) :
    state.perform (.deliver payment correlation) =
      { state with
        service := (state.service.reserve payment).1
        calls := ⟨decision.outcome, correlation, false⟩ ::ₘ state.calls } := by
  simp only [perform, decided]

end Inventory

/-! ## Two inventories -/

/-- The inventory, and beside it one that is given each message once. -/
structure Repeated where
  repeating : Inventory
  once : Inventory
  decisions : List Decision
  /-- What the other inventory decided. -/
  firsts : List Decision

namespace Repeated

def initial : Repeated := ⟨.initial, .initial, [], []⟩

/-- The message is about to be decided on for the first time. -/
def First (state : Repeated) (payment : PaymentCaptured) : Prop :=
  state.repeating.service.Answers ∧ ∀ first ∈ state.firsts, first.payment ≠ payment

instance (state : Repeated) (payment : PaymentCaptured) : Decidable (state.First payment) :=
  inferInstanceAs (Decidable (_ ∧ _))

private theorem seen {state : Repeated} {payment : PaymentCaptured}
    (answers : state.repeating.service.Answers) (again : ¬state.First payment) :
    ∃ first ∈ state.firsts, first.payment = payment := by
  by_contra unseen
  exact again ⟨answers, fun first member same => unseen ⟨first, member, same⟩⟩

def onceAfter (state : Repeated) : InventoryAction → Inventory
  | .withStock sku quantity => state.once.perform (.withStock sku quantity)
  | .deliver payment correlation =>
      if state.First payment then state.once.perform (.deliver payment correlation)
      else state.once
  | _ => state.once

def decisionsAfter (state : Repeated) : InventoryAction → List Decision
  | .deliver payment _ => state.decisions ++ state.repeating.service.decisions payment
  | _ => state.decisions

def firstsAfter (state : Repeated) : InventoryAction → List Decision
  | .deliver payment _ =>
      if state.First payment then state.firsts ++ state.once.service.decisions payment
      else state.firsts
  | _ => state.firsts

def perform (state : Repeated) (action : InventoryAction) : Repeated where
  repeating := state.repeating.perform action
  once := state.onceAfter action
  decisions := state.decisionsAfter action
  firsts := state.firstsAfter action

end Repeated

/-- The runs of `inventory`, each beside the run in which no message is repeated
and the warehouse does not fail. -/
def repeated : TransitionSystem Repeated InventoryAction where
  Initial state := state = Repeated.initial
  Enabled state action := state.repeating.Enabled action
  perform := Repeated.perform

instance (state : Repeated) (action : InventoryAction) :
    Decidable (repeated.Enabled state action) :=
  inferInstanceAs (Decidable (state.repeating.Enabled action))

/-- The other inventory runs the same code. -/
theorem Repeated.once_reached {Allowed : Repeated → InventoryAction → Prop} {state : Repeated}
    (reached : repeated.Reached Allowed state) :
    inventory.Reached TransitionSystem.anyStep state.once := by
  refine reached.project Repeated.once (fun _ first => by cases first; rfl) ?_
  intro state action _ _
  cases action with
  | withStock sku quantity => exact .inr ⟨.withStock sku quantity, trivial, trivial, rfl⟩
  | deliver payment correlation =>
      by_cases first : state.First payment
      · exact .inr ⟨.deliver payment correlation, trivial, trivial, if_pos first⟩
      · exact .inl (if_neg first)
  | _ => exact .inl rfl

/-- What the two inventories keep whatever is repeated: every message is decided on
by both, by the second once, and nothing is published that was not decided. -/
structure Repeated.Sound (state : Repeated) : Prop where
  reliable : state.once.service.failuresToSimulate = 0 ∧ 0 ≤ state.once.service.warehouseCalls
  known : ∀ decision ∈ state.decisions, ∃ first ∈ state.firsts,
    first.payment = decision.payment
  sound : ∀ decision, decision ∈ state.decisions ∨ decision ∈ state.firsts → decision.Sound
  distinct : (state.firsts.map Decision.payment).Nodup
  calls : ∀ call ∈ state.repeating.calls, ∃ decision ∈ state.decisions,
    decision.outcome = call.outcome
  published : ∀ event ∈ state.repeating.published, ∃ decision ∈ state.decisions,
    decision.outcome = event.outcome

namespace Repeated.Sound

variable {state : Repeated}

private theorem initial : Repeated.initial.Sound where
  reliable := ⟨rfl, le_rfl⟩
  known := by simp [Repeated.initial]
  sound := by simp [Repeated.initial]
  distinct := by simp [Repeated.initial]
  calls := by simp [Repeated.initial, Inventory.initial]
  published := by simp [Repeated.initial, Inventory.initial]

private theorem answers (sound : state.Sound) : state.once.service.Answers := by
  have reliable := sound.reliable
  rw [InventoryService.Answers]
  omega

private theorem of_undecided (sound : state.Sound) {next : Repeated}
    (reliable : next.once.service.failuresToSimulate = 0 ∧ 0 ≤ next.once.service.warehouseCalls)
    (decisions : next.decisions = state.decisions) (firsts : next.firsts = state.firsts)
    (calls : ∀ call ∈ next.repeating.calls, ∃ before ∈ state.repeating.calls,
      before.outcome = call.outcome)
    (published : ∀ event ∈ next.repeating.published, event ∈ state.repeating.published ∨
      ∃ call ∈ state.repeating.calls, call.outcome = event.outcome) : next.Sound := by
  constructor
  · exact reliable
  · rw [decisions, firsts]
    exact sound.known
  · rw [decisions, firsts]
    exact sound.sound
  · rw [firsts]
    exact sound.distinct
  · intro call member
    rcases calls call member with ⟨before, held, same⟩
    rw [decisions, ← same]
    exact sound.calls before held
  · intro event member
    rw [decisions]
    rcases published event member with before | ⟨call, held, same⟩
    · exact sound.published event before
    · rw [← same]
      exact sound.calls call held

private theorem decide (sound : state.Sound) {next : Repeated} {decision : Decision}
    {firsts : List Decision} {correlation : String} (mine : decision.Sound)
    (reliable : next.once.service.failuresToSimulate = 0 ∧ 0 ≤ next.once.service.warehouseCalls)
    (decisions : next.decisions = state.decisions ++ [decision])
    (more : next.firsts = state.firsts ++ firsts)
    (known : ∃ first ∈ next.firsts, first.payment = decision.payment)
    (fresh : ∀ first ∈ firsts, first.Sound ∧
      ∀ before ∈ state.firsts, before.payment ≠ first.payment)
    (single : (firsts.map Decision.payment).Nodup)
    (calls : next.repeating.calls =
      ⟨decision.outcome, correlation, false⟩ ::ₘ state.repeating.calls)
    (published : next.repeating.published = state.repeating.published) : next.Sound := by
  have kept : ∀ outcome, (∃ before ∈ state.decisions, before.outcome = outcome) →
      ∃ after ∈ next.decisions, after.outcome = outcome := by
    rintro outcome ⟨before, member, same⟩
    rw [decisions]
    exact ⟨before, List.mem_append_left _ member, same⟩
  constructor
  · exact reliable
  · intro other member
    rw [decisions] at member
    rcases List.mem_append.mp member with before | now
    · rcases sound.known other before with ⟨first, present, same⟩
      rw [more]
      exact ⟨first, List.mem_append_left _ present, same⟩
    · rw [List.mem_singleton.mp now]
      exact known
  · rintro other (member | member)
    · rw [decisions] at member
      rcases List.mem_append.mp member with before | now
      · exact sound.sound other (.inl before)
      · rw [List.mem_singleton.mp now]
        exact mine
    · rw [more] at member
      rcases List.mem_append.mp member with before | now
      · exact sound.sound other (.inr before)
      · exact (fresh other now).1
  · rw [more, List.map_append]
    apply List.nodup_append.mpr
    refine ⟨sound.distinct, single, ?_⟩
    intro payment before other now
    rcases List.mem_map.mp before with ⟨earlier, member, same⟩
    rcases List.mem_map.mp now with ⟨later, memberToo, sameToo⟩
    rw [← same, ← sameToo]
    exact (fresh later memberToo).2 earlier member
  · intro call member
    rw [calls] at member
    rcases Multiset.mem_cons.mp member with now | before
    · rw [now, decisions]
      exact ⟨decision, List.mem_append_right _ (List.mem_singleton_self _), rfl⟩
    · exact kept _ (sound.calls call before)
  · intro event member
    rw [published] at member
    exact kept _ (sound.published event member)

private theorem deliver (sound : state.Sound) (payment : PaymentCaptured) (correlation : String) :
    (state.perform (.deliver payment correlation)).Sound := by
  by_cases answers : state.repeating.service.Answers
  · rcases state.repeating.service.decisions_of_answer payment answers with
      ⟨decision, decided, ours, -, mine, ran, -⟩
    have moved := Inventory.deliver_of_answer correlation ran
    have published : (state.repeating.perform (.deliver payment correlation)).published =
        state.repeating.published := by
      rw [moved]
    by_cases first : state.First payment
    · rcases state.once.service.decisions_of_answer payment sound.answers with
        ⟨original, decidedOnce, same, -, right, ranOnce, -⟩
      have movedOnce := Inventory.deliver_of_answer correlation ranOnce
      have firsts : (state.perform (.deliver payment correlation)).firsts =
          state.firsts ++ [original] := by
        simp only [perform, firstsAfter, if_pos first, decidedOnce]
      have warehouse := state.once.service.reserve_warehouse payment
      have reliable := sound.reliable
      apply sound.decide mine _ _ firsts _ _ (List.nodup_singleton _)
        (congrArg Inventory.calls moved) published
      · simp only [perform, onceAfter, if_pos first, movedOnce]
        omega
      · simp only [perform, decisionsAfter, decided]
      · rw [firsts]
        exact ⟨original, List.mem_append_right _ (List.mem_singleton_self _), same.trans ours.symm⟩
      · intro other member
        rw [List.mem_singleton.mp member, same]
        exact ⟨right, first.2⟩
    · have firsts : (state.perform (.deliver payment correlation)).firsts =
          state.firsts ++ [] := by
        simp only [perform, firstsAfter, if_neg first, List.append_nil]
      apply sound.decide mine _ _ firsts _ (by simp) List.nodup_nil
        (congrArg Inventory.calls moved) published
      · simp only [perform, onceAfter, if_neg first]
        exact sound.reliable
      · simp only [perform, decisionsAfter, decided]
      · rw [firsts, ours, List.append_nil]
        exact Repeated.seen answers first
  · have moved := (Inventory.deliver_of_silent payment correlation answers).1
    have again : ¬state.First payment := fun first => answers first.1
    apply sound.of_undecided
    · simp only [perform, onceAfter, if_neg again]
      exact sound.reliable
    · simp only [perform, decisionsAfter, List.append_nil,
        InventoryService.decisions_of_silent payment answers]
    · simp only [perform, firstsAfter, if_neg again]
    · simp only [perform, moved]
      exact fun call member => ⟨call, member, rfl⟩
    · simp only [perform, moved]
      exact fun event member => .inl member

private theorem kept (sound : state.Sound) (action : InventoryAction)
    (enabled : repeated.Enabled state action) : (state.perform action).Sound := by
  cases action with
  | withStock sku quantity =>
      exact sound.of_undecided sound.reliable rfl rfl (fun call member => ⟨call, member, rfl⟩)
        fun event member => .inl member
  | withFlakyWarehouse count =>
      exact sound.of_undecided sound.reliable rfl rfl (fun call member => ⟨call, member, rfl⟩)
        fun event member => .inl member
  | deliver payment correlation => exact sound.deliver payment correlation
  | publish call =>
      refine sound.of_undecided sound.reliable rfl rfl ?_ ?_
      · intro other member
        rcases Multiset.mem_cons.mp member with now | before
        · exact ⟨call, enabled.1, by rw [now]⟩
        · exact ⟨other, Multiset.mem_of_mem_erase before, rfl⟩
      · intro event member
        rcases List.mem_append.mp member with before | now
        · exact .inl before
        · exact .inr ⟨call, enabled.1, by rw [List.mem_singleton.mp now]⟩
  | sent call =>
      exact sound.of_undecided sound.reliable rfl rfl
        (fun other member => ⟨other, Multiset.mem_of_mem_erase member, rfl⟩)
        fun event member => .inl member
  | raise call =>
      exact sound.of_undecided sound.reliable rfl rfl
        (fun other member => ⟨other, Multiset.mem_of_mem_erase member, rfl⟩)
        fun event member => .inl member

end Repeated.Sound

/-- A message repeated leaves the stock as it is when handled once, and gets the same
outcome. -/
structure Repeated.Insensitive (state : Repeated) : Prop where
  stock : ∀ sku, state.repeating.service.stockOf sku = state.once.service.stockOf sku
  outcome : ∀ decision ∈ state.decisions, ∀ first ∈ state.firsts,
    first.payment = decision.payment →
      decision.outcome.isReserved = first.outcome.isReserved

/-- A message that is decided on again finds the stock on the same side of its
quantity as the first time; and if that is enough, it wants nothing. -/
def Repeatable (state : Repeated) : InventoryAction → Prop
  | .deliver payment _ =>
      state.repeating.service.Answers → ∀ first ∈ state.firsts, first.payment = payment →
        (payment.quantity ≤ state.repeating.service.stockOf payment.sku ↔
          payment.quantity ≤ first.available) ∧
        (payment.quantity ≤ state.repeating.service.stockOf payment.sku → payment.quantity = 0)
  | _ => True

instance (state : Repeated) (action : InventoryAction) : Decidable (Repeatable state action) := by
  rcases action with ⟨⟩ <;> unfold Repeatable <;> infer_instance

namespace Repeated.Insensitive

variable {state : Repeated}

private theorem initial : Repeated.initial.Insensitive where
  stock := fun _ => rfl
  outcome := by simp [Repeated.initial]

private theorem of_undecided (insensitive : state.Insensitive) {next : Repeated}
    (stock : ∀ sku, next.repeating.service.stockOf sku = next.once.service.stockOf sku)
    (decisions : next.decisions = state.decisions) (firsts : next.firsts = state.firsts) :
    next.Insensitive := by
  refine ⟨stock, ?_⟩
  rw [decisions, firsts]
  exact insensitive.outcome

/-- The first decision about a message is the same in both inventories. -/
theorem first (insensitive : state.Insensitive) (sound : state.Sound)
    {payment : PaymentCaptured} (correlation : String) (first : state.First payment) :
    (state.perform (.deliver payment correlation)).Insensitive := by
  rcases state.repeating.service.decisions_of_answer payment first.1 with
    ⟨decision, decided, ours, found, mine, ran, taken⟩
  rcases state.once.service.decisions_of_answer payment sound.answers with
    ⟨original, decidedOnce, theirs, foundOnce, right, ranOnce, takenOnce⟩
  have moved := Inventory.deliver_of_answer correlation ran
  have movedOnce := Inventory.deliver_of_answer correlation ranOnce
  have alike : decision.available = original.available := by
    rw [found, foundOnce, insensitive.stock]
  constructor
  · intro sku
    simp only [perform, onceAfter, if_pos first, moved, movedOnce, taken, takenOnce,
      insensitive.stock]
  · intro other member before present same
    simp only [perform, decisionsAfter, decided] at member
    simp only [perform, firstsAfter, if_pos first, decidedOnce] at present
    rcases List.mem_append.mp member with old | now
    · rcases List.mem_append.mp present with oldToo | nowToo
      · exact insensitive.outcome other old before oldToo same
      · rcases sound.known other old with ⟨earlier, known, sameToo⟩
        rw [List.mem_singleton.mp nowToo, theirs] at same
        exact absurd (sameToo.trans same.symm) (first.2 earlier known)
    · rw [List.mem_singleton.mp now] at same ⊢
      rcases List.mem_append.mp present with oldToo | nowToo
      · exact absurd (same.trans ours) (first.2 before oldToo)
      · rw [List.mem_singleton.mp nowToo]
        apply Bool.eq_iff_iff.mpr
        rw [mine.2, right.2, ours, theirs, alike]

private theorem again_iff (insensitive : state.Insensitive) (sound : state.Sound)
    {payment : PaymentCaptured} (correlation : String)
    (answers : state.repeating.service.Answers) (again : ¬state.First payment) :
    (state.perform (.deliver payment correlation)).Insensitive ↔
      Repeatable state (.deliver payment correlation) := by
  rcases state.repeating.service.decisions_of_answer payment answers with
    ⟨decision, decided, ours, found, mine, ran, taken⟩
  have moved := Inventory.deliver_of_answer correlation ran
  have decisions : (state.perform (.deliver payment correlation)).decisions =
      state.decisions ++ [decision] := by
    simp only [perform, decisionsAfter, decided]
  have firsts : (state.perform (.deliver payment correlation)).firsts = state.firsts := by
    simp only [perform, firstsAfter, if_neg again]
  have stock : ∀ sku, (state.perform (.deliver payment correlation)).repeating.service.stockOf sku =
      state.repeating.service.stockOf sku -
        if payment.quantity ≤ state.repeating.service.stockOf payment.sku then
          amountFor sku (payment.sku, payment.quantity)
        else 0 := by
    intro sku
    simp only [perform, moved, taken]
  have once : (state.perform (.deliver payment correlation)).once = state.once := by
    simp only [perform, onceAfter, if_neg again]
  constructor
  · intro same _ first member payments
    have unchanged := same.stock payment.sku
    have alike := same.outcome decision
      (by rw [decisions]; exact List.mem_append_right _ (List.mem_singleton_self _))
      first (by rw [firsts]; exact member) (payments.trans ours.symm)
    rw [stock, once, insensitive.stock] at unchanged
    have right := sound.sound first (.inr member)
    constructor
    · rw [← found, ← ours, ← mine.2, alike, right.2, payments, ours]
    · intro enough
      rw [insensitive.stock] at enough
      rw [if_pos enough, amountFor_self] at unchanged
      omega
  · intro repeatable
    rcases Repeated.seen answers again with ⟨first, member, payments⟩
    have meets := repeatable answers first member payments
    constructor
    · intro sku
      rw [stock, once, insensitive.stock]
      by_cases enough : payment.quantity ≤ state.repeating.service.stockOf payment.sku
      · have nothing : amountFor sku (payment.sku, payment.quantity) = 0 := by
          rw [meets.2 enough]
          exact ite_self 0
        rw [if_pos enough, nothing, sub_zero]
      · rw [if_neg enough, sub_zero]
    · intro other present before memberToo same
      rw [decisions] at present
      rw [firsts] at memberToo
      rcases List.mem_append.mp present with old | now
      · exact insensitive.outcome other old before memberToo same
      · rw [List.mem_singleton.mp now] at same ⊢
        have right := sound.sound before (.inr memberToo)
        have side := (repeatable answers before memberToo (same.trans ours)).1
        apply Bool.eq_iff_iff.mpr
        rw [mine.2, right.2, same, ours, found, side]

/-- Exactly the repetitions that are `Repeatable` change nothing. -/
theorem kept_iff (insensitive : state.Insensitive) (sound : state.Sound)
    (action : InventoryAction) :
    (state.perform action).Insensitive ↔ Repeatable state action := by
  cases action with
  | withStock sku quantity =>
      refine iff_of_true (insensitive.of_undecided ?_ rfl rfl) trivial
      intro other
      by_cases same : other = sku
      · subst same
        exact (Tally.of_insert_self ..).trans (Tally.of_insert_self ..).symm
      · have left := Tally.of_insert_other state.repeating.service.stock quantity same
        have right := Tally.of_insert_other state.once.service.stock quantity same
        exact left.trans ((insensitive.stock other).trans right.symm)
  | withFlakyWarehouse count =>
      exact iff_of_true (insensitive.of_undecided insensitive.stock rfl rfl) trivial
  | deliver payment correlation =>
      by_cases answers : state.repeating.service.Answers
      · by_cases first : state.First payment
        · refine iff_of_true (insensitive.first sound correlation first) ?_
          intro _ before member same
          exact absurd same (first.2 before member)
        · exact insensitive.again_iff sound correlation answers first
      · have again : ¬state.First payment := fun first => answers first.1
        have moved := Inventory.deliver_of_silent payment correlation answers
        refine iff_of_true (insensitive.of_undecided ?_ ?_ ?_) fun able => absurd able answers
        · intro sku
          simp only [perform, onceAfter, if_neg again, moved.1]
          rw [← insensitive.stock sku, InventoryService.stockOf, InventoryService.stockOf, moved.2]
        · simp only [perform, decisionsAfter, List.append_nil,
            InventoryService.decisions_of_silent payment answers]
        · simp only [perform, firstsAfter, if_neg again]
  | publish call =>
      exact iff_of_true (insensitive.of_undecided insensitive.stock rfl rfl) trivial
  | sent call =>
      have unchanged : (state.repeating.service.sent call.outcome).stock =
          state.repeating.service.stock := by
        cases call.outcome <;> rfl
      refine iff_of_true (insensitive.of_undecided ?_ rfl rfl) trivial
      intro sku
      have before := insensitive.stock sku
      rw [InventoryService.stockOf, ← unchanged] at before
      exact before
  | raise call =>
      exact iff_of_true (insensitive.of_undecided insensitive.stock rfl rfl) trivial

end Repeated.Insensitive

/-! ## What a repetition changes -/

def Shipping.ShipsOnce (state : Shipping) : Prop :=
  ∀ reservation ∈ state.handled, state.shipments reservation.orderId = 1

instance (state : Shipping) : Decidable state.ShipsOnce :=
  inferInstanceAs (Decidable (∀ reservation ∈ state.handled, _))

private theorem Shipping.shipsOnce_iff {Allowed : Shipping → ShippingAction → Prop}
    {state : Shipping}
    (reached : shipping.Reached Allowed state) :
    state.ShipsOnce ↔ (state.handled.map StockReserved.orderId).Nodup := by
  have counted : ∀ orderId, state.shipments orderId =
      (state.handled.map StockReserved.orderId).count orderId := by
    intro orderId
    rw [state.shipments_eq reached, List.count, List.countP_map]
    rfl
  rw [List.nodup_iff_count_eq_one, ShipsOnce]
  simp only [counted, List.forall_mem_map]

/-- As long as every message that is repeated is `Repeatable`, the stock is what it is
when each is handled once, and every outcome published is of the kind its message gets
then; the next step keeps it so exactly when it is `Repeatable` too. The orders of the
handled reservations are shipped once exactly when no reservation is handled again. -/
theorem insensitive_iff {state : Repeated} (reached : repeated.Reached Repeatable state)
    {dispatched : Shipping} (ran : shipping.Reached TransitionSystem.anyStep dispatched) :
    (state.Insensitive ∧
      (∀ event ∈ state.repeating.published, ∃ first ∈ state.firsts,
        event.outcome.orderId = first.payment.orderId ∧
          event.outcome.isReserved = first.outcome.isReserved) ∧
      ∀ action, repeated.Enabled state action →
        ((state.perform action).Insensitive ↔ Repeatable state action)) ∧
    (dispatched.ShipsOnce ↔ (dispatched.handled.map StockReserved.orderId).Nodup) := by
  have sound : ∀ {state : Repeated}, repeated.Reached Repeatable state → state.Sound := by
    intro state reached
    exact reached.invariant Repeated.Sound (fun _ first => by cases first; exact .initial)
      fun _ action sound _ enabled => sound.kept action enabled
  have insensitive : state.Insensitive :=
    reached.invariant_using Repeated.Sound Repeated.Insensitive (fun _ => sound)
      (fun _ first => by cases first; exact .initial)
      fun _ action sound insensitive repeatable _ =>
        (insensitive.kept_iff sound action).mpr repeatable
  refine ⟨⟨insensitive, ?_, fun action _ => insensitive.kept_iff (sound reached) action⟩,
    dispatched.shipsOnce_iff ran⟩
  intro event published
  rcases (sound reached).published event published with ⟨decision, member, same⟩
  rcases (sound reached).known decision member with ⟨first, present, ours⟩
  have right := (sound reached).sound decision (.inl member)
  refine ⟨first, present, ?_, ?_⟩
  · rw [← same, right.1, ours]
  · rw [← same]
    exact insensitive.outcome decision member first present ours

def heldForAda : StockReserved := ⟨"ord-00000001", "ada", "WIDGET", 2⟩

/-- A message is refused, and refused again when another order has taken from the
stock; a reservation is handled once. -/
theorem refusal_insensitive : ∃ state : Repeated, ∃ dispatched : Shipping,
    state.decisions.length = 3 ∧ state.firsts.length = 2 ∧
      (∀ action, repeated.Enabled state action →
        ((state.perform action).Insensitive ↔ Repeatable state action)) ∧
      dispatched.ShipsOnce := by
  have reached : repeated.Reached Repeatable _ :=
    .of_run [.withStock "WIDGET" 1, .deliver payment "order-1",
      .deliver ⟨"order-2", "bob", "WIDGET", 1, 21⟩ "order-2", .deliver payment "order-1"]
      (.start rfl) rfl
  have ran : shipping.Reached TransitionSystem.anyStep _ :=
    .of_run [.deliver heldForAda "ord-00000001"] (.start rfl) rfl
  have facts := insensitive_iff reached ran
  exact ⟨_, _, rfl, rfl, facts.1.2.2, facts.2.mpr (by decide)⟩

/-- The stock of a message handled twice is taken twice, and a reservation handled
twice is shipped twice. -/
theorem handled_twice_taken_twice :
    (¬∀ state, repeated.Reached TransitionSystem.anyStep state → state.Insensitive) ∧
      ¬∀ state, shipping.Reached TransitionSystem.anyStep state → state.ShipsOnce := by
  constructor
  · intro insensitive
    have reached : repeated.Reached TransitionSystem.anyStep _ :=
      .of_run [.withStock "WIDGET" 10, .deliver payment "order-1", .deliver payment "order-1"]
        (.start rfl) rfl
    have six := (insensitive _ reached).stock "WIDGET"
    revert six
    decide
  · intro once
    have reached : shipping.Reached TransitionSystem.anyStep _ :=
      .of_run [.deliver heldForAda "ord-00000001", .deliver heldForAda "ord-00000001"]
        (.start rfl) rfl
    have single := once _ reached
    revert single
    decide

end AmqpApps.Fulfilment
