import AmqpApps.Ledger.LedgerModule
import Mathlib.Algebra.BigOperators.Group.Multiset.Basic
import Mathlib.Algebra.Ring.Int.Defs

/-! # The books of the journal and of the writer

An entry counts in the journal from the moment the broker stores it and in the
writer's balances from the moment its send returns. What lies between the two
views is what the calls in progress have had stored, and what was stored for
calls that had given up.
-/

namespace AmqpApps.Ledger

def onAccount (account : String) (entries : List EntryPosted) : Int :=
  (entries.map fun entry => amountFor account entry.line).sum

@[simp] theorem onAccount_nil (account : String) : onAccount account [] = 0 := rfl

@[simp] theorem onAccount_cons (account : String) (entry : EntryPosted)
    (entries : List EntryPosted) : onAccount account (entry :: entries) =
      amountFor account entry.line + onAccount account entries := by
  simp [onAccount]

theorem onAccount_append (account : String) (first second : List EntryPosted) :
    onAccount account (first ++ second) =
      onAccount account first + onAccount account second := by
  simp [onAccount]

/-- What a call has had stored and not yet applied. -/
def Call.unapplied (account : String) (call : Call) : Int :=
  if call.stored then onAccount account call.sending.entries else 0

def unapplied (account : String) (calls : Multiset Call) : Int :=
  (calls.map (Call.unapplied account)).sum

@[simp] theorem unapplied_zero (account : String) : unapplied account 0 = 0 := rfl

@[simp] theorem unapplied_cons (account : String) (call : Call) (calls : Multiset Call) :
    unapplied account (call ::ₘ calls) =
      call.unapplied account + unapplied account calls := by
  simp [unapplied]

@[simp] theorem unapplied_add (account : String) (calls more : Multiset Call) :
    unapplied account (calls + more) =
      unapplied account calls + unapplied account more := by
  simp [unapplied]

private theorem unapplied_erase (account : String) {call : Call} {calls : Multiset Call}
    (member : call ∈ calls) :
    unapplied account calls =
      call.unapplied account + unapplied account (calls.erase call) :=
  (Multiset.sum_map_erase member).symm

theorem LedgerModule.of_start (journal : List EntryPosted) (account : String) :
    (LedgerModule.start journal).balances.of account = onAccount account journal := by
  simp [LedgerModule.start, onAccount, Function.comp_def]

theorem LedgerModule.of_resume (ledger : LedgerModule) (entryId : String)
    (sending : Sending) (account : String) :
    (ledger.resume entryId sending).1.balances.of account =
      ledger.balances.of account + onAccount account sending.entries := by
  cases sending <;> simp [resume, postReturned, Sending.entries]

private theorem LedgerModule.resume_unapplied (ledger : LedgerModule) (entryId : String)
    (sending : Sending) (account : String) :
    unapplied account (Multiset.ofList (ledger.resume entryId sending).2.toList) = 0 := by
  cases sending <;> simp [resume, unapplied, Call.unapplied]

/-! ## The equation -/

/-- A writer that starts has read the journal to its end. -/
def WholeRebuild (state : State) : Action → Prop
  | .start length => state.journal.length ≤ length
  | _ => True

instance (state : State) (action : Action) : Decidable (WholeRebuild state action) := by
  rcases action with ⟨⟩ <;> unfold WholeRebuild <;> infer_instance

structure Balanced (state : State) : Prop where
  stopped : state.writer = none → state.calls = 0
  books : ∀ ledger, state.writer = some ledger → ∀ account,
    onAccount account state.journal = ledger.balances.of account +
      unapplied account state.calls + onAccount account state.history.strays

private theorem Balanced.initial : Balanced State.initial where
  stopped _ := rfl
  books _ running := by cases running

private theorem Balanced.running {state : State} (balanced : Balanced state) {call : Call}
    (member : call ∈ state.calls) : ∃ ledger, state.writer = some ledger := by
  cases running : state.writer with
  | none => simp [balanced.stopped running] at member
  | some ledger => exact ⟨ledger, rfl⟩

private theorem Balanced.deliver {state : State} (balanced : Balanced state)
    (transfer : Transfer) (entryId : String) :
    Balanced (state.perform (.deliver transfer entryId)) := by
  cases running : state.writer with
  | none =>
      have idle : state.perform (.deliver transfer entryId) = state := by
        simp [State.perform, running]
      rw [idle]
      exact balanced
  | some ledger =>
      simp only [State.perform, running]
      refine ⟨by rintro ⟨⟩, ?_⟩
      intro after same account
      cases same
      have books := balanced.books ledger running account
      simpa [Call.unapplied] using books

private theorem Balanced.store {state : State} (balanced : Balanced state) {call : Call}
    (member : call ∈ state.calls) (notStored : call.stored = false) :
    Balanced (state.perform (.store call)) := by
  constructor
  · intro stopped
    rcases balanced.running member with ⟨ledger, running⟩
    have stopped : state.writer = none := stopped
    simp [running] at stopped
  · intro ledger running account
    have books := balanced.books ledger running account
    have split := unapplied_erase account member
    simp only [Call.unapplied, notStored] at split
    simp only [State.perform, State.take, unapplied_cons, onAccount_append,
      Call.unapplied]
    simp only [Bool.false_eq_true, if_false, if_true] at split ⊢
    omega

private theorem Balanced.confirm {state : State} (balanced : Balanced state) {call : Call}
    (entryId : String) (member : call ∈ state.calls) (stored : call.stored = true) :
    Balanced (state.perform (.confirm call entryId)) := by
  rcases balanced.running member with ⟨ledger, running⟩
  have books := balanced.books ledger running
  simp only [State.perform, running]
  refine ⟨by rintro ⟨⟩, ?_⟩
  intro after same account
  cases same
  have split := unapplied_erase account member
  simp only [Call.unapplied, stored, if_true] at split
  have applied := ledger.of_resume entryId call.sending account
  have following := ledger.resume_unapplied entryId call.sending account
  have before := books account
  simp only [unapplied_add]
  omega

private theorem Balanced.fail {state : State} (balanced : Balanced state) {call : Call}
    (member : call ∈ state.calls) : Balanced (state.perform (.fail call)) := by
  rcases balanced.running member with ⟨ledger, running⟩
  have books := balanced.books ledger running
  have split := fun account => unapplied_erase account member
  simp only [State.perform, State.stray]
  cases stored : call.stored with
  | false =>
      refine ⟨fun stopped => absurd stopped (by simp [running]), ?_⟩
      intro after same account
      cases running.symm.trans same
      have before := books account
      rw [split account] at before
      simpa [Call.unapplied, stored] using before
  | true =>
      refine ⟨fun stopped => absurd stopped (by simp [running]), ?_⟩
      intro after same account
      cases running.symm.trans same
      have before := books account
      rw [split account] at before
      simp only [Call.unapplied, stored, if_true] at before
      simp only [if_true, onAccount_append]
      omega

private theorem Balanced.kept (state : State) (action : Action) (balanced : Balanced state)
    (whole : WholeRebuild state action) (enabled : state.Enabled action) :
    Balanced (state.perform action) := by
  cases action with
  | request id from_ to_ amountMinor description =>
      exact ⟨balanced.stopped, balanced.books⟩
  | redeliver transfer => exact ⟨balanced.stopped, balanced.books⟩
  | deliver transfer entryId => exact balanced.deliver transfer entryId
  | fund account amountMinor entryId =>
      constructor
      · intro stopped
        have running : state.writer.isSome := enabled
        have stopped : state.writer = none := stopped
        simp [stopped] at running
      · intro after same other
        simpa [State.perform, LedgerModule.fund, Call.unapplied] using
          balanced.books after same other
  | store call => exact balanced.store enabled.1 enabled.2
  | confirm call entryId => exact balanced.confirm entryId enabled.1 enabled.2
  | fail call => exact balanced.fail enabled
  | storeLate entry =>
      refine ⟨balanced.stopped, ?_⟩
      intro ledger running account
      have books := balanced.books ledger running account
      simp only [State.perform, State.stray, onAccount_append]
      omega
  | lose entry => exact ⟨balanced.stopped, balanced.books⟩
  | crash => exact ⟨fun _ => rfl, by rintro _ ⟨⟩⟩
  | start length =>
      have idle : state.calls = 0 := balanced.stopped enabled
      have read : state.journal.take length = state.journal :=
        List.take_of_length_le whole
      refine ⟨by rintro ⟨⟩, ?_⟩
      intro ledger running account
      cases running
      simp [State.perform, LedgerModule.of_start, read, idle]
  | notice rejection => exact ⟨balanced.stopped, balanced.books⟩

/-- The equation of the two views, in every state of every run whose rebuilds
are whole. -/
theorem Balanced.of_reached {state : State} (reached : system.Reached WholeRebuild state) :
    Balanced state :=
  reached.invariant Balanced (fun state first => by cases first; exact .initial) Balanced.kept

/-! ## The writer and its journal at rest -/

/-- With no call in progress the writer agrees with its journal on an account,
and a restart changes nothing there, exactly when the entries that were stored
although their send raised sum to zero on it. -/
theorem writer_agrees_iff {state : State} {ledger : LedgerModule}
    (reached : system.Reached WholeRebuild state) (running : state.writer = some ledger)
    (idle : state.calls = 0) (account : String) :
    (ledger.balanceOf account = onAccount account state.journal ∧
      (LedgerModule.start state.journal).balanceOf account = ledger.balanceOf account) ↔
    onAccount account state.history.strays = 0 := by
  have books := (Balanced.of_reached reached).books ledger running account
  have restarted := LedgerModule.of_start state.journal account
  rw [idle, unapplied_zero] at books
  simp only [LedgerModule.balanceOf]
  constructor
  · intro agrees
    omega
  · intro cancelled
    constructor <;> omega

def unconfirmedFunding : List Action :=
  [.start 0, .fund "alice" 100 "E-1", .store ⟨.opening "alice" 100 "E-1", false⟩,
    .fail ⟨.opening "alice" 100 "E-1", true⟩]

/-- Another entry is lost on its way to the broker. -/
theorem confirmed_funding_agrees : ∃ (state : State) (ledger : LedgerModule),
    state.writer = some ledger ∧ ledger.balanceOf "alice" = 100 ∧
      ((ledger.balanceOf "alice" = onAccount "alice" state.journal ∧
        (LedgerModule.start state.journal).balanceOf "alice" = ledger.balanceOf "alice") ↔
      onAccount "alice" state.history.strays = 0) := by
  have reached : system.Reached WholeRebuild _ :=
    .of_run [.start 0, .fund "alice" 100 "E-1", .store ⟨.opening "alice" 100 "E-1", false⟩,
      .confirm ⟨.opening "alice" 100 "E-1", true⟩ "E-2", .fund "alice" 7 "E-3",
      .fail ⟨.opening "alice" 7 "E-3", false⟩, .lose (fundEntry "alice" 7 "E-3")] (.start rfl) rfl
  exact ⟨_, _, rfl, rfl, writer_agrees_iff reached rfl rfl "alice"⟩

theorem unconfirmed_funding_drifts : ¬ ∀ (state : State) (ledger : LedgerModule),
    system.Reached WholeRebuild state → state.writer = some ledger → state.calls = 0 →
      ∀ account, ledger.balanceOf account = onAccount account state.journal := by
  intro agrees
  have reached : system.Reached WholeRebuild _ :=
    .of_run unconfirmedFunding (.start rfl) rfl
  have same := agrees _ _ reached rfl rfl "alice"
  revert same
  decide

end AmqpApps.Ledger
