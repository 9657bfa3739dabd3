import AmqpApps.Ledger.Books
import Mathlib.Algebra.Order.BigOperators.Group.Multiset

/-! # No reader of the journal sees an overdrawn account

The writer checks a transfer against its own balances; what a reader sees is
the journal. In between lie the entries stored and not yet applied, and as long
as these are all deposits the check errs on the safe side.
-/

namespace AmqpApps.Ledger

/-- Read from the start to anywhere, no account is overdrawn. -/
def Solvent (journal : List EntryPosted) : Prop :=
  ∀ account first, first <+: journal → 0 ≤ onAccount account first

private theorem Solvent.whole {journal : List EntryPosted} (solvent : Solvent journal)
    (account : String) : 0 ≤ onAccount account journal :=
  solvent account journal (List.prefix_refl journal)

private theorem Solvent.concat {journal : List EntryPosted} (solvent : Solvent journal)
    {entry : EntryPosted}
    (held : 0 ≤ onAccount entry.account journal + entry.amountMinor) :
    Solvent (journal ++ [entry]) := by
  intro account first isPrefix
  rcases List.prefix_concat_iff.mp isPrefix with whole | shorter
  · subst whole
    rw [onAccount_append]
    by_cases same : entry.account = account
    · subst same
      simpa [EntryPosted.line] using held
    · simpa [EntryPosted.line, amountFor_other _ same] using solvent.whole account
  · exact solvent account first shorter

/-! ## Runs of the ledger that fail cleanly -/

/-- Deposits are not negative, handlers come one at a time, a send that raises
has appended nothing, and a new writer reads the whole journal. -/
def CleanFailures (state : State) (action : Action) : Prop :=
  OneAtATime state action ∧ WholeRebuild state action ∧
    match action with
    | .fund _ amountMinor _ => 0 ≤ amountMinor
    | .fail call => call.stored = false
    | .storeLate _ => False
    | _ => True

instance (state : State) (action : Action) : Decidable (CleanFailures state action) := by
  rcases action with ⟨⟩ <;> unfold CleanFailures <;> infer_instance

/-- Storing what the call sends overdraws nothing. -/
def Call.Covered (journal : List EntryPosted) : Call → Prop
  | ⟨.opening _ amountMinor _, _⟩ => 0 ≤ amountMinor
  | ⟨.debit transfer _, stored⟩ => 0 < transfer.amountMinor ∧
      (stored = false → transfer.amountMinor ≤ onAccount transfer.from_ journal)
  | ⟨.credit transfer _, _⟩ => 0 < transfer.amountMinor
  | ⟨.rejection _, _⟩ => True

namespace Call.Covered

variable {journal later : List EntryPosted} {call : Call} {sending : Sending}

private theorem of_unhandled (covered : call.Covered journal)
    (unhandled : call.sending.handled = false) : call.Covered later := by
  rcases call with ⟨sending, stored⟩
  cases sending with
  | opening account amountMinor entryId => exact covered
  | _ => cases unhandled

private theorem of_stored (covered : Covered journal ⟨sending, false⟩) :
    Covered later ⟨sending, true⟩ := by
  cases sending with
  | debit transfer entryId => exact ⟨covered.1, nofun⟩
  | opening account amountMinor entryId => exact covered
  | credit transfer entryId => exact covered
  | rejection rejected => exact covered

private theorem mono (covered : call.Covered journal)
    (grows : ∀ account, onAccount account journal ≤ onAccount account later) :
    call.Covered later := by
  rcases call with ⟨sending, stored⟩
  cases sending with
  | debit transfer entryId =>
      have more := grows transfer.from_
      exact ⟨covered.1, fun notStored => (covered.2 notStored).trans more⟩
  | opening account amountMinor entryId => exact covered
  | credit transfer entryId => exact covered
  | rejection rejected => exact covered

private theorem solvent (covered : Covered journal ⟨sending, false⟩) (before : Solvent journal) :
    Solvent (journal ++ sending.entries) := by
  cases sending with
  | opening account amountMinor entryId =>
      have amount : 0 ≤ amountMinor := covered
      have held := before.whole account
      exact before.concat (by simp only [fundEntry]; omega)
  | debit transfer entryId =>
      have held := covered.2 rfl
      exact before.concat (by simp only [debitEntry]; omega)
  | credit transfer entryId =>
      have amount : 0 < transfer.amountMinor := covered
      have held := before.whole transfer.to_
      exact before.concat (by simp only [creditEntry]; omega)
  | rejection rejected => simpa [Sending.entries] using before

private theorem deposit (covered : call.Covered journal)
    (unhandled : call.sending.handled = false) (account : String) :
    0 ≤ onAccount account call.sending.entries := by
  rcases call with ⟨sending, stored⟩
  cases sending with
  | opening name amountMinor entryId =>
      have amount : 0 ≤ amountMinor := covered
      by_cases same : name = account
      · simpa [Sending.entries, fundEntry, EntryPosted.line, amountFor, same] using amount
      · simp [Sending.entries, fundEntry, EntryPosted.line, amountFor, same]
  | _ => cases unhandled

private theorem resume (covered : call.Covered journal) (ledger : LedgerModule)
    (entryId : String) :
    ∀ next ∈ (ledger.resume entryId call.sending).2, next.Covered later := by
  rcases call with ⟨sending, stored⟩
  cases sending with
  | debit transfer sent =>
      intro next member
      cases member
      exact covered.1
  | _ => simp [LedgerModule.resume]

end Call.Covered

private theorem unapplied_nonneg {journal : List EntryPosted} (account : String)
    {calls : Multiset Call} (covered : ∀ call ∈ calls, call.Covered journal)
    (unhandled : ∀ call ∈ calls, call.sending.handled = false) :
    0 ≤ unapplied account calls := by
  apply Multiset.sum_nonneg
  intro amount member
  rcases Multiset.mem_map.mp member with ⟨call, present, equal⟩
  subst equal
  have more := (covered call present).deposit (unhandled call present) account
  rw [Call.unapplied]
  split <;> omega

structure Sound (state : State) : Prop where
  noStrays : state.history.strays = []
  single : handlers state.calls ≤ 1
  solvent : Solvent state.journal
  covered : ∀ call ∈ state.calls, call.Covered state.journal

private theorem Sound.initial : Sound State.initial where
  noStrays := rfl
  single := by simp [State.initial]
  solvent := by
    intro account first isPrefix
    simp [List.prefix_nil.mp isPrefix]
  covered := by simp [State.initial]

/-- A transfer is accepted against no more than the journal holds. -/
theorem Sound.deliver {state : State} (sound : Sound state) (balanced : Balanced state)
    (transfer : Transfer) (entryId : String) (alone : handlers state.calls = 0)
    {ledger : LedgerModule} (running : state.writer = some ledger) :
    (ledger.apply transfer entryId).2.Covered state.journal := by
  have unhandled := handlers_eq_zero alone
  have hidden := unapplied_nonneg transfer.from_ sound.covered unhandled
  have books := balanced.books ledger running transfer.from_
  rw [sound.noStrays, onAccount_nil] at books
  rcases ledger.apply_cases transfer entryId with ⟨-, reason, ran⟩ | ⟨positive, enough, ran⟩
  · rw [ran]
    trivial
  · rw [ran]
    refine ⟨positive, ?_⟩
    intro pending
    omega

/-- The journal grows by what one call sent, and the others stay covered. -/
theorem Sound.store {state : State} (sound : Sound state) {call : Call}
    (member : call ∈ state.calls) (notStored : call.stored = false) :
    Solvent (state.journal ++ call.sending.entries) ∧
      ∀ other ∈ ⟨call.sending, true⟩ ::ₘ state.calls.erase call,
        other.Covered (state.journal ++ call.sending.entries) := by
  have mine : Call.Covered state.journal ⟨call.sending, false⟩ := by
    have covered := sound.covered call member
    rcases call with ⟨sending, stored⟩
    cases notStored
    exact covered
  refine ⟨mine.solvent sound.solvent, ?_⟩
  intro other present
  rcases Multiset.mem_cons.mp present with same | another
  · subst same
    exact mine.of_stored
  · have covered := sound.covered other (Multiset.mem_of_mem_erase another)
    cases handled : call.sending.handled with
    | true => exact covered.of_unhandled (others_unhandled sound.single member handled _ another)
    | false =>
        apply covered.mono
        intro account
        have more : 0 ≤ onAccount account call.sending.entries := mine.deposit handled account
        rw [onAccount_append]
        omega

private theorem Sound.kept (state : State) (action : Action) (balanced : Balanced state)
    (sound : Sound state) (clean : CleanFailures state action)
    (enabled : state.Enabled action) : Sound (state.perform action) := by
  have single := handlers_kept state action clean.1 enabled sound.single
  have erased : ∀ call, ∀ other ∈ state.calls.erase call, other.Covered state.journal :=
    fun call other member => sound.covered other (Multiset.mem_of_mem_erase member)
  cases action with
  | request id from_ to_ amountMinor description =>
      exact ⟨sound.noStrays, single, sound.solvent, sound.covered⟩
  | redeliver transfer => exact ⟨sound.noStrays, single, sound.solvent, sound.covered⟩
  | deliver transfer entryId =>
      rcases Option.isSome_iff_exists.mp enabled.2 with ⟨ledger, running⟩
      have covered := sound.deliver balanced transfer entryId clean.1 running
      simp only [State.perform, running] at single ⊢
      refine ⟨sound.noStrays, single, sound.solvent, ?_⟩
      intro call member
      rcases Multiset.mem_cons.mp member with same | other
      · subst same
        exact covered
      · exact sound.covered call other
  | fund account amountMinor entryId =>
      refine ⟨sound.noStrays, single, sound.solvent, ?_⟩
      intro call member
      rcases Multiset.mem_cons.mp member with same | other
      · subst same
        exact clean.2.2
      · exact sound.covered call other
  | store call =>
      have stored := sound.store enabled.1 enabled.2
      exact ⟨sound.noStrays, single, stored.1, stored.2⟩
  | confirm call entryId =>
      cases running : state.writer with
      | none => simpa [State.perform, running] using sound
      | some ledger =>
          simp only [State.perform, running] at single ⊢
          refine ⟨sound.noStrays, single, sound.solvent, ?_⟩
          intro other member
          rcases Multiset.mem_add.mp member with next | another
          · apply (sound.covered call enabled.1).resume ledger entryId other
            simpa using next
          · exact erased call other another
  | fail call =>
      have notStored : call.stored = false := clean.2.2
      simp only [State.perform, notStored, Bool.false_eq_true, if_false] at single ⊢
      exact ⟨sound.noStrays, single, sound.solvent, erased call⟩
  | storeLate entry => exact clean.2.2.elim
  | lose entry => exact ⟨sound.noStrays, single, sound.solvent, sound.covered⟩
  | crash => exact ⟨sound.noStrays, single, sound.solvent, by simp [State.perform]⟩
  | start length => exact ⟨rfl, single, sound.solvent, sound.covered⟩
  | notice rejection => exact ⟨sound.noStrays, single, sound.solvent, sound.covered⟩

/-- Whoever reads the journal from its start, up to any entry, finds no account
below zero. -/
theorem never_overdrawn {state : State} (reached : system.Reached CleanFailures state)
    (account : String) (first : List EntryPosted) (isPrefix : first <+: state.journal) :
    0 ≤ onAccount account first := by
  have sound : Sound state :=
    reached.invariant_using Balanced Sound
      (fun _ before => .of_reached (before.mono fun _ _ clean => clean.2.1))
      (fun _ initial => by cases initial; exact .initial) Sound.kept
  exact sound.solvent account first isPrefix

/-- The writer dies between the debit and the credit of alice's payment to
herself, and her deposit is stored in between. -/
theorem payment_to_oneself_never_overdraws : ∃ state : State,
    state.journal.map EntryPosted.line = [("alice", 100), ("alice", -100), ("alice", 30)] ∧
      0 ≤ onAccount "alice" (state.journal.take 2) := by
  have reached : system.Reached CleanFailures _ :=
    .of_run [.start 0, .fund "alice" 100 "E-1", .store (LedgerModule.fund "alice" 100 "E-1"),
      .confirm ⟨.opening "alice" 100 "E-1", true⟩ "E-2",
      .request "1" "alice" "alice" 100 "rent",
      .deliver (requestTransfer "1" "alice" "alice" 100 "rent") "E-3",
      .fund "alice" 30 "E-4",
      .store ⟨.debit (requestTransfer "1" "alice" "alice" 100 "rent") "E-3", false⟩,
      .store ⟨.opening "alice" 30 "E-4", false⟩, .crash, .start 3] (.start rfl) rfl
  exact ⟨_, rfl, never_overdrawn reached "alice" _ (List.take_prefix 2 _)⟩

end AmqpApps.Ledger
