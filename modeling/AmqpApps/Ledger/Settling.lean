import AmqpApps.Foundation.Runs
import AmqpApps.Ledger.Linearizability

/-! # Every transfer is answered

The writer, the broker and the gateway work off what is asked of them in a bounded number of
steps. When nothing fails, and they can do no more, each transfer has its two entries or its
refusal.
-/

namespace AmqpApps.Ledger

/-- What the writer, the broker and the gateway do by themselves; a writer that has died is
started again. -/
def Action.own : Action → Bool
  | request .. | redeliver _ | fund .. | crash => false
  | deliver .. | store _ | confirm .. | fail _ | storeLate _ | lose _ | start _ | notice _ => true

/-! ## What is left to do -/

def Call.work : Call → Nat
  | ⟨.debit .., stored⟩ => if stored then 3 else 4
  | ⟨.rejection _, stored⟩ => if stored then 1 else 3
  | ⟨.credit .., stored⟩ | ⟨.opening .., stored⟩ => if stored then 1 else 2

private theorem Call.work_pos (call : Call) : 0 < call.work := by
  rcases call with ⟨sending, stored⟩
  cases sending <;> cases stored <;> simp [work]

private theorem work_erase {call : Call} {calls : Multiset Call} (member : call ∈ calls) :
    ((calls.erase call).map fun call => call.work).sum + call.work =
      (calls.map fun call => call.work).sum := by
  have parts := Multiset.sum_map_erase (f := fun call : Call => call.work) member
  omega

private theorem work_unstored (calls : Multiset Call) :
    (unstored calls).card ≤ (calls.map fun call => call.work).sum := by
  induction calls using Multiset.induction_on with
  | empty => rfl
  | cons call calls induction =>
      have positive := call.work_pos
      have one : call.sending.entries.length ≤ 1 := by
        cases call.sending <;> simp [Sending.entries]
      rw [unstored_cons, Multiset.card_add, Multiset.map_cons, Multiset.sum_cons]
      cases call.stored <;> simp <;> omega

namespace State

variable {state : State}

def work (state : State) : Nat :=
  5 * state.commands.card + (state.calls.map fun call => call.work).sum + state.adrift.card +
    state.rejections.card + state.writer.isNone.toNat

private theorem work_step {action : Action} (alive : ∀ call ∈ state.calls, state.writer ≠ none)
    (own : action.own = true) (enabled : state.Enabled action) :
    (state.perform action).work < state.work := by
  cases action with
  | request id from_ to_ amountMinor description => cases own
  | redeliver transfer => cases own
  | fund account amountMinor entryId => cases own
  | crash => cases own
  | deliver transfer entryId =>
      rcases Option.isSome_iff_exists.mp enabled.2 with ⟨ledger, running⟩
      have taken := Multiset.card_erase_add_one enabled.1
      have started : (ledger.apply transfer entryId).2.work ≤ 4 := by
        rcases ledger.apply_cases transfer entryId with ⟨-, reason, ran⟩ | ⟨-, -, ran⟩
        · rw [ran]
          simp [LedgerModule.reject, Call.work]
        · rw [ran]
          simp [Call.work]
      simp only [perform, running, work, Multiset.map_cons, Multiset.sum_cons,
        Option.isNone_some, Bool.toNat_false]
      omega
  | store call =>
      rcases call with ⟨sending, stored⟩
      rcases enabled with ⟨member, notStored⟩
      cases notStored
      have parts := work_erase member
      have share : (⟨sending, true⟩ : Call).work + sending.refusals.length <
          (⟨sending, false⟩ : Call).work := by
        cases sending <;> simp [Call.work, Sending.refusals]
      simp only [perform, take, work, Multiset.map_cons, Multiset.sum_cons, Multiset.card_add,
        Multiset.coe_card]
      omega
  | confirm call entryId =>
      rcases call with ⟨sending, stored⟩
      rcases enabled with ⟨member, isStored⟩
      cases isStored
      have parts := work_erase member
      cases running : state.writer with
      | none => exact absurd running (alive _ member)
      | some ledger =>
          have share : ((Multiset.ofList (ledger.resume entryId sending).2.toList).map
              fun call => call.work).sum < (⟨sending, true⟩ : Call).work := by
            cases sending <;> simp [LedgerModule.resume, Call.work]
          simp only [perform, running, work, Multiset.map_add, Multiset.sum_add,
            Option.isNone_some, Bool.toNat_false]
          omega
  | fail call =>
      have member : call ∈ state.calls := enabled
      have parts := work_erase member
      have positive := call.work_pos
      cases stored : call.stored with
      | false =>
          have share : call.sending.entries.length < call.work := by
            rcases call with ⟨sending, isStored⟩
            cases stored
            cases sending <;> simp [Sending.entries, Call.work]
          simp only [perform, stored, work, Multiset.card_add, Multiset.coe_card,
            Bool.false_eq_true, if_false]
          omega
      | true =>
          simp only [perform, stray, stored, work, if_true]
          omega
  | storeLate entry =>
      have taken := Multiset.card_erase_add_one enabled
      simp only [perform, stray, work]
      omega
  | lose entry =>
      have taken := Multiset.card_erase_add_one enabled
      simp only [perform, work]
      omega
  | start length =>
      have stopped : state.writer = none := enabled
      simp [perform, work, stopped]
  | notice rejection =>
      have taken := Multiset.card_erase_add_one enabled
      simp only [perform, work]
      omega

private theorem work_given {action : Action} (given : action.own = false)
    (enabled : state.Enabled action) : (state.perform action).work ≤ state.work + 5 := by
  cases action with
  | request id from_ to_ amountMinor description =>
      simp only [perform, work, Multiset.card_cons]
      omega
  | redeliver transfer =>
      simp only [perform, work, Multiset.card_cons]
      omega
  | fund account amountMinor entryId =>
      have opening : (LedgerModule.fund account amountMinor entryId).work = 2 := rfl
      simp only [perform, work, Multiset.map_cons, Multiset.sum_cons, opening]
      omega
  | crash =>
      have abandoned := work_unstored state.calls
      simp only [perform, work, Multiset.card_add, Multiset.map_zero, Multiset.sum_zero,
        Option.isNone_none, Bool.toNat_true]
      omega
  | _ => cases given

end State

private theorem alive_of_reached {state : State} (reached : system.Reached WholeRebuild state) :
    ∀ call ∈ state.calls, state.writer ≠ none := by
  intro call member stopped
  rw [(Balanced.of_reached reached).stopped stopped] at member
  exact Multiset.notMem_zero call member

/-- The steps that have been taken unasked and those that can still be taken are at most five
for each that was asked for, and the start of the writer. -/
theorem work_le_asked {actions : List Action} {state : State}
    (ran : system.Ran WholeRebuild actions state) :
    actions.countP Action.own + state.work ≤
      1 + 5 * actions.countP (fun action => !action.own) := by
  refine ran.taken_le Action.own (fun action => !action.own) State.work 1 5 ?_ ?_ ?_
  · intro state first
    cases first
    simp [State.initial, State.work]
  · intro state action reached own enabled
    exact State.work_step (alive_of_reached reached) own enabled
  · intro state action given enabled
    rw [given]
    exact State.work_given given enabled

/-! ## When nothing fails -/

def Working (state : State) (action : Action) : Prop :=
  action.own = true ∧ FailureFree state action

private theorem FailureFree.wholeRebuild {state : State}
    (reached : system.Reached FailureFree state) :
    system.Reached WholeRebuild state :=
  reached.mono fun _ _ faultless => faultless.2.2.1

private theorem runsDown_working :
    system.RunsDown Working (system.Reached FailureFree) State.work where
  kept _ action reached working enabled := .next action reached working.2 enabled
  lighter _ _ reached working enabled :=
    State.work_step (alive_of_reached (FailureFree.wholeRebuild reached)) working.1 enabled

/-- The commands are done, the refusals are noticed, and nobody is at work. -/
structure State.AtRest (state : State) : Prop where
  running : state.writer.isSome
  calls : state.calls = 0
  commands : state.commands = 0
  rejections : state.rejections = 0

private theorem State.atRest_of_still {state : State} (still : system.Still Working state) :
    state.AtRest := by
  have cannot : ∀ action, Working state action → ¬state.Enabled action := still
  have running : state.writer.isSome := by
    cases writer : state.writer with
    | some ledger => rfl
    | none =>
        have starts : Working state (.start state.journal.length) :=
          ⟨rfl, trivial, trivial, le_rfl, trivial⟩
        exact absurd writer (cannot _ starts)
  have calls : state.calls = 0 := by
    apply Multiset.eq_zero_of_forall_notMem
    rintro ⟨sending, stored⟩ member
    cases stored with
    | false => exact cannot (.store _) ⟨rfl, trivial, trivial, trivial, trivial⟩ ⟨member, rfl⟩
    | true => exact cannot (.confirm _ "") ⟨rfl, trivial, trivial, trivial, trivial⟩ ⟨member, rfl⟩
  constructor
  · exact running
  · exact calls
  · apply Multiset.eq_zero_of_forall_notMem
    intro transfer member
    have idle : OneAtATime state (.deliver transfer "") := by
      change handlers state.calls = 0
      rw [calls]
      rfl
    exact cannot (.deliver transfer "") ⟨rfl, trivial, idle, trivial, trivial⟩ ⟨member, running⟩
  · apply Multiset.eq_zero_of_forall_notMem
    intro rejection member
    exact cannot (.notice rejection) ⟨rfl, trivial, trivial, trivial, trivial⟩ member

/-- What comes of a transfer: its two entries, or no entry and one refusal. -/
def State.Answers (state : State) (transfer : Transfer) : Prop :=
  ((∃ first second, (state.journal.filter fun entry =>
      entry.transferId = transfer.transferId).Perm
        [debitEntry transfer first, creditEntry transfer second]) ∧
    (state.refused.filter fun rejected => rejected.transferId = transfer.transferId) = []) ∨
  ((state.journal.filter fun entry => entry.transferId = transfer.transferId) = [] ∧
    ∃ reason, (state.refused.filter fun rejected =>
      rejected.transferId = transfer.transferId) = [refusal transfer reason])

private theorem State.AtRest.answers {state : State} (rest : state.AtRest)
    (reached : system.Reached FailureFree state) :
    ∀ transfer ∈ state.history.requested, state.Answers transfer := by
  intro transfer requested
  have accounted := Accounted.of_reached reached
  rcases requested_from_gateway reached transfer requested with ⟨id, drawn⟩
  have notOpening : ∀ account, "OPENING-" ++ account ≠ transfer.transferId := by
    intro account
    rw [drawn]
    exact opening_ne_transfer account id
  have requests := accounted.requests
  rw [rest.commands, zero_add] at requests
  have decided : transfer ∈ state.history.decided.map Prod.fst := by
    rw [← Multiset.mem_coe, ← requests]
    exact requested
  rcases List.mem_map.mp decided with ⟨⟨same, accepted⟩, member, equal⟩
  cases equal
  cases accepted with
  | true =>
      refine .inl ⟨accounted.accepted rest.calls member notOpening, ?_⟩
      have refusals := Multiset.map_eq_zero.mp (accounted.refusalsOf rest.calls member)
      rw [rest.rejections, zero_add, Multiset.filter_coe] at refusals
      exact (Multiset.coe_eq_zero _).mp refusals
  | false =>
      rcases accounted.refused rest.calls member notOpening with ⟨nothing, reason, announced⟩
      rw [rest.rejections, zero_add, Multiset.filter_coe, ← Multiset.coe_singleton] at announced
      exact .inr ⟨nothing, reason, List.perm_singleton.mp (Multiset.coe_eq_coe.mp announced)⟩

private theorem requested_of_own {state : State} {action : Action} (own : action.own = true) :
    (state.perform action).history.requested = state.history.requested := by
  cases action with
  | request id from_ to_ amountMinor description => cases own
  | deliver transfer entryId => cases running : state.writer <;> simp [State.perform, running]
  | confirm call entryId => cases running : state.writer <;> simp [State.perform, running]
  | fail call => cases stored : call.stored <;> simp [State.perform, State.stray, stored]
  | _ => rfl

end AmqpApps.Ledger
