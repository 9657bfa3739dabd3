import AmqpApps.Foundation.SequentialObject
import AmqpApps.Ledger.Books
import AmqpApps.Ledger.Promises

/-! # An atomic bank, and where the ledger's calls take effect

The bank moves money at once or not at all. A transfer of the ledger takes
effect when `_apply` decides it, although its two entries are applied later;
a funding takes effect when its entry is applied. Between the two, the writer's
balances lack what the handler at work still owes them.
-/

namespace AmqpApps.Ledger

inductive Operation
  | fund (account : String) (amountMinor : Int)
  | transfer (command : Transfer)

/-- A map from accounts to amounts, which answers whether it did as asked. -/
def bank : SequentialObject (String → Int) Operation Bool where
  initial := fun _ => 0
  perform balance
    | .fund account amountMinor =>
        (fun name => balance name + amountFor name (account, amountMinor), true)
    | .transfer command =>
        if command.amountMinor ≤ 0 ∨ balance command.from_ < command.amountMinor then
          (balance, false)
        else
          (fun name => balance name + amountFor name (command.from_, -command.amountMinor) +
            amountFor name (command.to_, command.amountMinor), true)

def decision : Operation × Bool → Option (Transfer × Bool)
  | (.transfer command, accepted) => some (command, accepted)
  | (.fund .., _) => none

def funding : Operation → Option (String × Int)
  | .fund account amountMinor => some (account, amountMinor)
  | .transfer _ => none

/-! ## What a handler at work owes the balances -/

def Sending.owed (account : String) (sending : Sending) : Int :=
  if sending.handled then
    onAccount account sending.entries + onAccount account sending.toCome
  else 0

def owed (account : String) (calls : Multiset Call) : Int :=
  (calls.map fun call => call.sending.owed account).sum

private theorem owed_cons (account : String) (call : Call) (calls : Multiset Call) :
    owed account (call ::ₘ calls) = call.sending.owed account + owed account calls := by
  simp [owed]

private theorem owed_add (account : String) (calls more : Multiset Call) :
    owed account (calls + more) = owed account calls + owed account more := by
  simp [owed]

private theorem owed_erase (account : String) {call : Call} {calls : Multiset Call}
    (member : call ∈ calls) :
    owed account calls = call.sending.owed account + owed account (calls.erase call) := by
  rw [← owed_cons, Multiset.cons_erase member]

private theorem owed_eq_zero (account : String) {calls : Multiset Call}
    (idle : handlers calls = 0) :
    owed account calls = 0 := by
  apply Multiset.sum_eq_zero
  intro amount member
  rcases Multiset.mem_map.mp member with ⟨call, present, equal⟩
  rw [← equal, Sending.owed, handlers_eq_zero idle call present]
  rfl

def Sending.opened : Sending → Multiset (String × Int)
  | opening account amountMinor _ => {(account, amountMinor)}
  | _ => 0

def openings (calls : Multiset Call) : Multiset (String × Int) :=
  calls.bind fun call => call.sending.opened

private theorem openings_cons (call : Call) (calls : Multiset Call) :
    openings (call ::ₘ calls) = call.sending.opened + openings calls := by
  simp [openings]

private theorem openings_add (calls more : Multiset Call) :
    openings (calls + more) = openings calls + openings more := by
  simp [openings]

private theorem openings_erase {call : Call} {calls : Multiset Call} (member : call ∈ calls) :
    openings calls = call.sending.opened + openings (calls.erase call) := by
  rw [← openings_cons, Multiset.cons_erase member]

private theorem Sending.opened_of_handled {sending : Sending} (handled : sending.handled = true) :
    sending.opened = 0 := by
  cases sending with
  | opening account amountMinor entryId => cases handled
  | _ => rfl

private theorem owed_resume (ledger : LedgerModule) (entryId : String) (sending : Sending)
    (account : String) :
    owed account (Multiset.ofList (ledger.resume entryId sending).2.toList) =
      onAccount account sending.toCome := by
  cases sending with
  | debit transfer sent =>
      simp [LedgerModule.resume, owed, Sending.owed, Sending.handled, Sending.entries,
        Sending.toCome, EntryPosted.line, creditEntry]
  | _ => simp [LedgerModule.resume, owed, Sending.toCome]

private theorem openings_resume (ledger : LedgerModule) (entryId : String) (sending : Sending) :
    openings (Multiset.ofList (ledger.resume entryId sending).2.toList) = 0 := by
  cases sending <;> simp [LedgerModule.resume, openings, Sending.opened]

/-! ## Runs without failures -/

/-- Every send returns once its message is stored, no command is handed out
twice, and one handler is at work at a time. -/
def FailureFree (state : State) (action : Action) : Prop :=
  DistinctIds state action ∧ OneAtATime state action ∧ WholeRebuild state action ∧
    match action with
    | .redeliver _ | .fail _ | .storeLate _ | .lose _ | .crash => False
    | _ => True

instance (state : State) (action : Action) : Decidable (FailureFree state action) := by
  rcases action with ⟨⟩ <;> unfold FailureFree <;> infer_instance

/-- A log of the bank, and the balances it leads to, explain what the ledger has
done so far. -/
structure Explains (state : State) (log : List (Operation × Bool)) (balance : String → Int) :
    Prop where
  single : handlers state.calls ≤ 1
  stopped : state.writer = none → state.journal = [] ∧ state.calls = 0 ∧ balance = fun _ => 0
  view : ∀ ledger, state.writer = some ledger → ∀ account,
    balance account = ledger.balances.of account + owed account state.calls
  decisions : log.filterMap decision = state.history.decided
  fundings : Multiset.ofList ((log.map Prod.fst).filterMap funding) + openings state.calls =
    Multiset.ofList state.history.funded

private theorem Explains.initial : Explains State.initial [] bank.initial where
  single := by simp [State.initial]
  stopped _ := ⟨rfl, rfl, rfl⟩
  view := nofun
  decisions := rfl
  fundings := rfl

namespace Explains

variable {state : State} {log : List (Operation × Bool)} {balance : String → Int}

private theorem running (explains : Explains state log balance) {call : Call}
    (member : call ∈ state.calls) : ∃ ledger, state.writer = some ledger := by
  cases running : state.writer with
  | none => simp [(explains.stopped running).2.1] at member
  | some ledger => exact ⟨ledger, rfl⟩

/-- A transfer takes effect when it is decided, and the bank decides alike. -/
theorem deliver (explains : Explains state log balance) (transfer : Transfer)
    (entryId : String) (alone : handlers state.calls = 0)
    {ledger : LedgerModule} (running : state.writer = some ledger) :
    Explains (state.perform (.deliver transfer entryId))
      (log ++ [(.transfer transfer, (bank.perform balance (.transfer transfer)).2)])
      (bank.perform balance (.transfer transfer)).1 := by
  have view := explains.view ledger running
  have settled : ∀ account, balance account = ledger.balances.of account := by
    intro account
    rw [view account, owed_eq_zero account alone, add_zero]
  have single := handlers_cons (ledger.apply transfer entryId).2 state.calls
  have atMostOne : handlers ((ledger.apply transfer entryId).2 ::ₘ state.calls) ≤ 1 := by
    rw [single, alone]
    split <;> omega
  have fundings := explains.fundings
  simp only [State.perform, running]
  rcases ledger.apply_cases transfer entryId with ⟨refused, reason, ran⟩ | ⟨positive, enough, ran⟩
  · rw [← settled] at refused
    rw [ran] at atMostOne ⊢
    refine ⟨atMostOne, by rintro ⟨⟩, ?_, ?_, ?_⟩
    · intro after same account
      cases same
      simp only [bank, if_pos refused, owed_cons]
      simpa [LedgerModule.reject, Sending.owed, Sending.entries, Sending.toCome] using
        view account
    · simp [bank, if_pos refused, List.filterMap_append, explains.decisions, decision,
        LedgerModule.reject, Call.accepts]
    · simpa [bank, openings_cons, LedgerModule.reject, Sending.opened, List.filterMap_cons,
        funding] using fundings
  · have accepted : ¬ (transfer.amountMinor ≤ 0 ∨
        balance transfer.from_ < transfer.amountMinor) := by
      rw [settled]
      omega
    rw [ran] at atMostOne ⊢
    refine ⟨atMostOne, by rintro ⟨⟩, ?_, ?_, ?_⟩
    · intro after same account
      cases same
      have before := view account
      simp only [bank, if_neg accepted, owed_cons, Sending.owed, Sending.handled, if_true,
        Sending.entries, Sending.toCome, onAccount_cons, onAccount_nil, EntryPosted.line,
        debitEntry, creditEntry]
      omega
    · simp [bank, if_neg accepted, List.filterMap_append, explains.decisions, decision,
        Call.accepts]
    · simpa [bank, openings_cons, Sending.opened, List.filterMap_cons, funding] using fundings

/-- A funding takes effect when its entry is applied; the entries of a transfer
were owed. -/
theorem confirm (explains : Explains state log balance) {call : Call} (entryId : String)
    (member : call ∈ state.calls)
    (single : handlers (state.perform (.confirm call entryId)).calls ≤ 1) :
    Explains (state.perform (.confirm call entryId)) log balance ∨
      ∃ operation, Explains (state.perform (.confirm call entryId))
        (log ++ [(operation, (bank.perform balance operation).2)])
        (bank.perform balance operation).1 := by
  rcases explains.running member with ⟨ledger, running⟩
  have view := explains.view ledger running
  have split := fun account => owed_erase account member
  have applied := ledger.of_resume entryId call.sending
  have following := owed_resume ledger entryId call.sending
  have fundings := explains.fundings
  rw [openings_erase member] at fundings
  simp only [State.perform, running] at single ⊢
  cases sending : call.sending with
  | opening name amountMinor sent =>
      rw [sending] at applied following fundings single
      refine .inr ⟨.fund name amountMinor, single, by rintro ⟨⟩, ?_, ?_, ?_⟩
      · intro after same account
        cases same
        have before := view account
        rw [split account, sending] at before
        have next := following account
        simp only [Sending.owed, Sending.handled, Bool.false_eq_true, if_false] at before
        simp only [Sending.toCome, onAccount_nil] at next
        simp only [applied, bank, owed_add, next, Sending.entries, onAccount_cons,
          onAccount_nil, EntryPosted.line, fundEntry]
        omega
      · simp [List.filterMap_append, explains.decisions, List.filterMap_cons, decision]
      · rw [← fundings, List.map_append, List.filterMap_append, ← Multiset.coe_add,
          openings_add, openings_resume, zero_add, add_assoc]
        rfl
  | _ =>
      have handled : call.sending.handled = true := by rw [sending]; rfl
      rw [← sending]
      refine .inl ⟨single, by rintro ⟨⟩, ?_, explains.decisions, ?_⟩
      · intro after same account
        cases same
        have before := view account
        rw [split account, Sending.owed, if_pos handled] at before
        simp only [applied, owed_add, following]
        omega
      · rw [openings_add, openings_resume, zero_add, ← fundings,
          Sending.opened_of_handled handled, zero_add]

private theorem kept (explains : Explains state log balance) (action : Action)
    (faultless : FailureFree state action) (enabled : state.Enabled action) :
    Explains (state.perform action) log balance ∨
      ∃ operation, Explains (state.perform action)
        (log ++ [(operation, (bank.perform balance operation).2)])
        (bank.perform balance operation).1 := by
  have single := handlers_kept state action faultless.2.1 enabled explains.single
  cases action with
  | request id from_ to_ amountMinor description =>
      exact .inl ⟨single, explains.stopped, explains.view, explains.decisions,
        explains.fundings⟩
  | deliver transfer entryId =>
      rcases Option.isSome_iff_exists.mp enabled.2 with ⟨ledger, running⟩
      exact .inr ⟨.transfer transfer,
        explains.deliver transfer entryId faultless.2.1 running⟩
  | fund account amountMinor entryId =>
      refine .inl ⟨single, ?_, ?_, explains.decisions, ?_⟩
      · intro stopped
        have running : state.writer.isSome := enabled
        have idle : state.writer = none := stopped
        simp [idle] at running
      · intro ledger running name
        simp only [State.perform, owed_cons]
        simpa [LedgerModule.fund, Sending.owed, Sending.handled] using
          explains.view ledger running name
      · rw [State.perform, openings_cons, ← Multiset.coe_add, ← explains.fundings]
        simp only [LedgerModule.fund, Sending.opened, Multiset.coe_singleton]
        rw [add_comm {(account, amountMinor)}, add_assoc]
  | store call =>
      have split := fun account => owed_erase account enabled.1
      have fundings := explains.fundings
      rw [openings_erase enabled.1] at fundings
      refine .inl ⟨single, ?_, ?_, explains.decisions, ?_⟩
      · intro stopped
        rcases explains.running enabled.1 with ⟨ledger, running⟩
        have idle : state.writer = none := stopped
        simp [idle] at running
      · intro ledger running account
        rw [explains.view ledger running account, split account]
        simp [State.perform, owed_cons]
      · rw [State.perform, openings_cons]
        exact fundings
  | confirm call entryId => exact explains.confirm entryId enabled.1 single
  | start length =>
      rcases explains.stopped enabled with ⟨empty, idle, zero⟩
      refine .inl ⟨single, by rintro ⟨⟩, ?_, explains.decisions, explains.fundings⟩
      intro ledger running account
      cases running
      simp [State.perform, LedgerModule.of_start, empty, idle, zero, owed]
  | notice rejection =>
      exact .inl ⟨single, explains.stopped, explains.view, explains.decisions,
        explains.fundings⟩
  | redeliver transfer => exact faultless.2.2.2.elim
  | fail call => exact faultless.2.2.2.elim
  | storeLate entry => exact faultless.2.2.2.elim
  | lose entry => exact faultless.2.2.2.elim
  | crash => exact faultless.2.2.2.elim

end Explains

/-- In every state of a run without failures, some operations of the bank explain
what has been decided and what the balances are. -/
theorem explained {state : State} (reached : system.Reached FailureFree state) :
    ∃ operations, Explains state (bank.answers operations) (bank.after operations) :=
  reached.explained bank Explains (fun _ first => by cases first; exact .initial)
    fun _ action _ _ explains faultless enabled => explains.kept action faultless enabled

end AmqpApps.Ledger
