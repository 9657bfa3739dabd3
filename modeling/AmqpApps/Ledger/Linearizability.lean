import AmqpApps.Foundation.KeyedBags
import AmqpApps.Ledger.Bank
import AmqpApps.Ledger.SingleApplication

/-! # The ledger is an atomic bank that keeps its receipts

In a run without failures every decision of the writer is a decision of the
bank, and each leaves its traces: a pair of entries, or a refusal that reaches
the gateway.
-/

namespace AmqpApps.Ledger

def settledBy (decided : Transfer × Bool) : Multiset EntryPosted :=
  if decided.2 then pair decided.1 else 0

def TransferRejected.unreasoned (rejected : TransferRejected) : TransferRejected :=
  { rejected with reason := "" }

def refusal (transfer : Transfer) (reason : String) : TransferRejected :=
  ⟨transfer.transferId, transfer.from_, transfer.to_, transfer.amountMinor, reason⟩

def refusedBy (decided : Transfer × Bool) : Multiset TransferRejected :=
  if decided.2 then 0 else {refusal decided.1 ""}

def Call.unannounced (call : Call) : Multiset TransferRejected :=
  if call.stored then 0 else Multiset.ofList call.sending.refusals

/-- Every refusal so far: noticed, waiting, or still being sent. -/
def State.announced (state : State) : Multiset TransferRejected :=
  state.rejections + Multiset.ofList state.refused + state.calls.bind Call.unannounced

def EntryPosted.IsOpening (entry : EntryPosted) : Prop :=
  entry.transferId = "OPENING-" ++ entry.account

instance (entry : EntryPosted) : Decidable entry.IsOpening :=
  inferInstanceAs (Decidable (_ = _))

def openingEntry (funded : String × Int) : EntryPosted := fundEntry funded.1 funded.2 ""

private theorem LedgerModule.apply_settled (ledger : LedgerModule) (transfer : Transfer)
    (entryId : String) :
    (ledger.apply transfer entryId).2.promised =
      settledBy (transfer, (ledger.apply transfer entryId).2.accepts) := by
  rcases ledger.apply_cases transfer entryId with ⟨-, reason, ran⟩ | ⟨-, -, ran⟩
  · simp [ran, reject, settledBy, Call.accepts, Call.promised, Sending.entries, Sending.toCome]
  · rw [ran]
    rfl

private theorem LedgerModule.apply_refused (ledger : LedgerModule) (transfer : Transfer)
    (entryId : String) :
    (ledger.apply transfer entryId).2.unannounced.map TransferRejected.unreasoned =
      refusedBy (transfer, (ledger.apply transfer entryId).2.accepts) := by
  rcases ledger.apply_cases transfer entryId with ⟨-, reason, ran⟩ | ⟨-, -, ran⟩ <;>
    rw [ran] <;> rfl

private theorem unannounced_resume (ledger : LedgerModule) (entryId : String) (sending : Sending) :
    (Multiset.ofList (ledger.resume entryId sending).2.toList).bind Call.unannounced = 0 := by
  cases sending <;> simp [LedgerModule.resume, Call.unannounced, Sending.refusals]

/-! ## What the decisions so far have led to -/

structure Accounted (state : State) : Prop where
  nothingAdrift : state.adrift = 0
  noStrays : state.history.strays = []
  requests : Multiset.ofList state.history.requested =
    state.commands + Multiset.ofList (state.history.decided.map Prod.fst)
  distinct : (state.history.requested.map Transfer.transferId).Nodup
  entries : state.promised = (Multiset.ofList state.history.decided).bind settledBy +
    (Multiset.ofList state.history.funded).map openingEntry
  refusals : state.announced.map TransferRejected.unreasoned =
    (Multiset.ofList state.history.decided).bind refusedBy

private theorem Accounted.initial : Accounted State.initial where
  nothingAdrift := rfl
  noStrays := rfl
  requests := rfl
  distinct := List.nodup_nil
  entries := rfl
  refusals := rfl

private theorem dropped_eq_zero {state : State} {action : Action}
    (faultless : FailureFree state action) : state.dropped action = 0 := by
  cases action with
  | fail call => exact faultless.2.2.2.elim
  | lose entry => exact faultless.2.2.2.elim
  | crash => exact faultless.2.2.2.elim
  | _ => rfl

private theorem Accounted.requests_kept {state : State} {action : Action}
    (accounted : Accounted state)
    (faultless : FailureFree state action) (enabled : state.Enabled action) :
    Multiset.ofList (state.perform action).history.requested =
      (state.perform action).commands +
        Multiset.ofList ((state.perform action).history.decided.map Prod.fst) := by
  cases action with
  | request id from_ to_ amountMinor description =>
      simp only [State.perform, ← Multiset.coe_add, accounted.requests,
        ← Multiset.singleton_add, Multiset.coe_singleton]
      abel
  | deliver transfer entryId =>
      rcases Option.isSome_iff_exists.mp enabled.2 with ⟨ledger, running⟩
      have taken := Multiset.cons_erase enabled.1
      simp only [State.perform, running]
      rw [accounted.requests, List.map_append, ← Multiset.coe_add]
      conv_lhs => rw [← taken]
      simp only [← Multiset.singleton_add, List.map_cons, List.map_nil, Multiset.coe_singleton]
      abel
  | confirm call entryId =>
      cases running : state.writer <;> simp only [State.perform, running] <;>
        exact accounted.requests
  | redeliver transfer => exact faultless.2.2.2.elim
  | fail call => exact faultless.2.2.2.elim
  | _ => exact accounted.requests

private theorem Accounted.distinct_kept {state : State} {action : Action}
    (accounted : Accounted state)
    (faultless : FailureFree state action) :
    ((state.perform action).history.requested.map Transfer.transferId).Nodup := by
  cases action with
  | request id from_ to_ amountMinor description =>
      have fresh : ∀ transfer ∈ state.history.requested, transfer.transferId ≠ "T-" ++ id :=
        faultless.1
      simp only [State.perform, List.map_append, List.map_cons, List.map_nil]
      refine List.nodup_append.mpr ⟨accounted.distinct, List.nodup_singleton _, ?_⟩
      intro drawn member new single
      rcases List.mem_map.mp member with ⟨transfer, present, same⟩
      rw [List.mem_singleton.mp single, ← same]
      exact fresh transfer present
  | deliver transfer entryId =>
      cases running : state.writer <;> simp only [State.perform, running] <;>
        exact accounted.distinct
  | confirm call entryId =>
      cases running : state.writer <;> simp only [State.perform, running] <;>
        exact accounted.distinct
  | fail call => exact faultless.2.2.2.elim
  | _ => exact accounted.distinct

private theorem Accounted.entries_kept {state : State} {action : Action}
    (accounted : Accounted state)
    (faultless : FailureFree state action) (enabled : state.Enabled action) :
    (state.perform action).promised =
      (Multiset.ofList (state.perform action).history.decided).bind settledBy +
        (Multiset.ofList (state.perform action).history.funded).map openingEntry := by
  have entries := state.promised_kept action enabled
  rw [dropped_eq_zero faultless, add_zero, accounted.entries] at entries
  rw [entries]
  cases action with
  | deliver transfer entryId =>
      rcases Option.isSome_iff_exists.mp enabled.2 with ⟨ledger, running⟩
      simp only [State.undertaken, State.perform, running, LedgerModule.apply_settled,
        ← Multiset.coe_add, Multiset.add_bind, Multiset.coe_singleton, Multiset.singleton_bind]
      abel
  | fund account amountMinor entryId =>
      rw [State.perform, ← Multiset.coe_add, Multiset.map_add, add_assoc]
      rfl
  | confirm call entryId =>
      cases running : state.writer <;>
        simp only [State.undertaken, State.perform, running, add_zero]
  | fail call => exact faultless.2.2.2.elim
  | _ =>
      simp only [State.undertaken, add_zero]
      rfl

private theorem Accounted.refusals_kept {state : State} {action : Action}
    (accounted : Accounted state)
    (faultless : FailureFree state action) (enabled : state.Enabled action) :
    (state.perform action).announced.map TransferRejected.unreasoned =
      (Multiset.ofList (state.perform action).history.decided).bind refusedBy := by
  have refusals := accounted.refusals
  cases action with
  | deliver transfer entryId =>
      rcases Option.isSome_iff_exists.mp enabled.2 with ⟨ledger, running⟩
      simp only [State.perform, running]
      rw [State.announced, Multiset.cons_bind, ← Multiset.coe_add, Multiset.add_bind,
        ← refusals, State.announced]
      simp only [Multiset.coe_singleton, Multiset.singleton_bind, Multiset.map_add,
        LedgerModule.apply_refused]
      abel
  | fund account amountMinor entryId =>
      refine Eq.trans ?_ refusals
      simp [State.perform, State.announced, LedgerModule.fund, Call.unannounced,
        Sending.refusals]
  | store call =>
      refine Eq.trans (congrArg _ ?_) refusals
      simp only [State.perform, State.take, State.announced, Multiset.cons_bind,
        bind_erase Call.unannounced enabled.1, Call.unannounced, enabled.2, Bool.false_eq_true,
        if_false, if_true]
      abel
  | confirm call entryId =>
      cases running : state.writer with
      | none => simpa [State.perform, running] using refusals
      | some ledger =>
          simp only [State.perform, running]
          refine Eq.trans (congrArg _ ?_) refusals
          simp only [State.announced, Multiset.add_bind, unannounced_resume,
            bind_erase Call.unannounced enabled.1, Call.unannounced, enabled.2, if_true]
  | notice rejection =>
      refine Eq.trans (congrArg _ ?_) refusals
      have noticed := Multiset.cons_erase enabled
      simp only [State.announced]
      conv_rhs => rw [← noticed]
      simp only [State.perform, ← Multiset.coe_add, ← Multiset.singleton_add,
        Multiset.coe_singleton]
      abel
  | fail call => exact faultless.2.2.2.elim
  | crash => exact faultless.2.2.2.elim
  | _ => exact refusals

private theorem Accounted.nothing_lost {state : State} {action : Action}
    (accounted : Accounted state)
    (faultless : FailureFree state action) :
    (state.perform action).adrift = 0 ∧ (state.perform action).history.strays = [] := by
  cases action with
  | deliver transfer entryId =>
      cases running : state.writer <;> simp only [State.perform, running] <;>
        exact ⟨accounted.nothingAdrift, accounted.noStrays⟩
  | confirm call entryId =>
      cases running : state.writer <;> simp only [State.perform, running] <;>
        exact ⟨accounted.nothingAdrift, accounted.noStrays⟩
  | start length => exact ⟨accounted.nothingAdrift, rfl⟩
  | fail call => exact faultless.2.2.2.elim
  | storeLate entry => exact faultless.2.2.2.elim
  | lose entry => exact faultless.2.2.2.elim
  | crash => exact faultless.2.2.2.elim
  | _ => exact ⟨accounted.nothingAdrift, accounted.noStrays⟩

private theorem Accounted.kept (state : State) (action : Action) (accounted : Accounted state)
    (faultless : FailureFree state action) (enabled : state.Enabled action) :
    Accounted (state.perform action) where
  nothingAdrift := (accounted.nothing_lost faultless).1
  noStrays := (accounted.nothing_lost faultless).2
  requests := accounted.requests_kept faultless enabled
  distinct := accounted.distinct_kept faultless
  entries := accounted.entries_kept faultless enabled
  refusals := accounted.refusals_kept faultless enabled

theorem Accounted.of_reached {state : State} (reached : system.Reached FailureFree state) :
    Accounted state :=
  reached.invariant Accounted (fun _ first => by cases first; exact .initial) Accounted.kept

/-! ## With no call in progress -/

theorem settledBy_labelled (decided : Transfer × Bool) :
    ∀ entry ∈ settledBy decided, entry.transferId = decided.1.transferId := by
  rcases decided with ⟨transfer, accepted⟩
  cases accepted with
  | false => simp [settledBy]
  | true => simp [settledBy, pair, debitEntry, creditEntry]

private theorem refusedBy_labelled (decided : Transfer × Bool) :
    ∀ rejected ∈ refusedBy decided, rejected.transferId = decided.1.transferId := by
  rcases decided with ⟨transfer, accepted⟩
  cases accepted <;> simp [refusedBy, refusal]

private theorem EntryPosted.eq_of_unnamed {entry model : EntryPosted}
    (equal : entry.unnamed = model) :
    entry = { model with entryId := entry.entryId } := by
  subst equal
  rfl

private theorem TransferRejected.eq_of_unreasoned {rejected model : TransferRejected}
    (equal : rejected.unreasoned = model) :
    rejected = { model with reason := rejected.reason } := by
  subst equal
  rfl

namespace Accounted

variable {state : State}

/-- At rest everything undertaken is in the journal. -/
theorem journal (accounted : Accounted state) (idle : state.calls = 0) :
    unnamed state.journal = (Multiset.ofList state.history.decided).bind settledBy +
      (Multiset.ofList state.history.funded).map openingEntry := by
  have entries := accounted.entries
  simpa [State.promised, accounted.nothingAdrift, idle] using entries

private theorem decidedOnce (accounted : Accounted state) :
    ((Multiset.ofList state.history.decided).map fun decided => decided.1.transferId).Nodup := by
  have requested : Multiset.Nodup
      ((Multiset.ofList state.history.requested).map Transfer.transferId) := by
    simpa using accounted.distinct
  rw [accounted.requests, Multiset.map_add] at requested
  have decided := (Multiset.nodup_add.mp requested).2.1
  simpa [Function.comp_def] using decided

private theorem decided_requested (accounted : Accounted state) {decided : Transfer × Bool}
    (member : decided ∈ state.history.decided) : decided.1 ∈ state.history.requested := by
  have present : decided.1 ∈ Multiset.ofList state.history.requested := by
    rw [accounted.requests]
    refine Multiset.mem_add.mpr (.inr ?_)
    exact Multiset.mem_coe.mpr (List.mem_map_of_mem member)
  simpa using present

private theorem entriesOf (accounted : Accounted state) (idle : state.calls = 0)
    {decided : Transfer × Bool} (member : decided ∈ state.history.decided)
    (notOpening : ∀ account, "OPENING-" ++ account ≠ decided.1.transferId) :
    ((Multiset.ofList state.journal).filter fun entry =>
      entry.transferId = decided.1.transferId).map EntryPosted.unnamed = settledBy decided := by
  have about : (unnamed state.journal).filter
      (fun entry => entry.transferId = decided.1.transferId) = settledBy decided := by
    have openings : ((Multiset.ofList state.history.funded).map openingEntry).filter
        (fun entry => entry.transferId = decided.1.transferId) = 0 := by
      rw [Multiset.filter_eq_nil]
      intro entry present
      rcases Multiset.mem_map.mp present with ⟨funded, -, equal⟩
      rw [← equal]
      exact notOpening funded.1
    rw [accounted.journal idle, Multiset.filter_add, openings, add_zero]
    exact filter_bind_key settledBy_labelled accounted.decidedOnce (Multiset.mem_coe.mpr member)
  rw [unnamed, ← Multiset.map_coe, Multiset.filter_map] at about
  exact about

theorem refusalsOf (accounted : Accounted state) (idle : state.calls = 0)
    {decided : Transfer × Bool} (member : decided ∈ state.history.decided) :
    ((state.rejections + Multiset.ofList state.refused).filter fun rejected =>
      rejected.transferId = decided.1.transferId).map TransferRejected.unreasoned =
        refusedBy decided := by
  have refusals := accounted.refusals
  rw [State.announced, idle, Multiset.zero_bind, add_zero] at refusals
  have about := filter_bind_key refusedBy_labelled accounted.decidedOnce
    (Multiset.mem_coe.mpr member)
  rw [← refusals, Multiset.filter_map] at about
  exact about

theorem accepted (accounted : Accounted state) (idle : state.calls = 0) {transfer : Transfer}
    (member : (transfer, true) ∈ state.history.decided)
    (notOpening : ∀ account, "OPENING-" ++ account ≠ transfer.transferId) :
    ∃ first second, (state.journal.filter fun entry =>
      entry.transferId = transfer.transferId).Perm
        [debitEntry transfer first, creditEntry transfer second] := by
  have entries := accounted.entriesOf idle member notOpening
  rcases map_eq_pair entries with ⟨one, other, equal, debited, credited⟩
  refine ⟨one.entryId, other.entryId, ?_⟩
  rw [EntryPosted.eq_of_unnamed debited, EntryPosted.eq_of_unnamed credited] at equal
  rw [← Multiset.coe_eq_coe, ← Multiset.filter_coe]
  exact equal

theorem refused (accounted : Accounted state) (idle : state.calls = 0) {transfer : Transfer}
    (member : (transfer, false) ∈ state.history.decided)
    (notOpening : ∀ account, "OPENING-" ++ account ≠ transfer.transferId) :
    (state.journal.filter fun entry => entry.transferId = transfer.transferId) = [] ∧
      ∃ reason, (state.rejections + Multiset.ofList state.refused).filter
        (fun rejected => rejected.transferId = transfer.transferId) =
          {refusal transfer reason} := by
  have entries := accounted.entriesOf idle member notOpening
  have refusals := accounted.refusalsOf idle member
  constructor
  · have nothing := Multiset.map_eq_zero.mp entries
    simpa using nothing
  · rcases Multiset.map_eq_singleton.mp refusals with ⟨rejected, equal, same⟩
    refine ⟨rejected.reason, ?_⟩
    rw [TransferRejected.eq_of_unreasoned same] at equal
    exact equal

end Accounted

/-! ## Money -/

def amounts (entries : Multiset EntryPosted) : Int :=
  (entries.map EntryPosted.amountMinor).sum

private theorem amounts_add (entries more : Multiset EntryPosted) :
    amounts (entries + more) = amounts entries + amounts more := by
  simp [amounts]

private theorem amounts_unnamed (journal : List EntryPosted) :
    amounts (unnamed journal) = amounts (Multiset.ofList journal) := by
  simp [amounts, unnamed, Function.comp_def, EntryPosted.unnamed]

private theorem amounts_settled (decisions : Multiset (Transfer × Bool)) :
    amounts (decisions.bind settledBy) = 0 := by
  induction decisions using Multiset.induction_on with
  | empty => rfl
  | cons decided decisions induction =>
      rw [Multiset.cons_bind, amounts_add, induction, add_zero]
      rcases decided with ⟨transfer, accepted⟩
      cases accepted with
      | false => rfl
      | true => simp [settledBy, pair, amounts, debitEntry, creditEntry]

/-- The balances of a writer at rest add up to the journal. -/
theorem total_of_journal {state : State} {ledger : LedgerModule} (balanced : Balanced state)
    (accounted : Accounted state) (running : state.writer = some ledger)
    (idle : state.calls = 0) :
    ledger.snapshot.total = amounts (Multiset.ofList state.journal) := by
  have same : ∀ account, ledger.snapshot.of account =
      (LedgerModule.start state.journal).snapshot.of account := by
    intro account
    have books := balanced.books ledger running account
    rw [idle, unapplied_zero, accounted.noStrays, onAccount_nil, add_zero, add_zero,
      ← LedgerModule.of_start] at books
    exact books.symm
  rw [Tally.total_congr same]
  simp only [LedgerModule.snapshot, LedgerModule.start, Balances.snapshot,
    Balances.readThrough_eq, Tally.total_addAll, amounts]
  simp [Tally.total, Function.comp_def, EntryPosted.line]

private theorem opening_amounts {state : State} (accounted : Accounted state)
    (idle : state.calls = 0)
    (gateway : ∀ transfer ∈ state.history.requested, ∃ id, transfer.transferId = "T-" ++ id) :
    amounts (Multiset.ofList state.journal) =
      amounts (Multiset.ofList (state.journal.filter EntryPosted.IsOpening)) := by
  have journal := accounted.journal idle
  have moved : ((Multiset.ofList state.history.decided).bind settledBy).filter
      EntryPosted.IsOpening = 0 := by
    rw [Multiset.filter_eq_nil]
    intro entry present opening
    rcases Multiset.mem_bind.mp present with ⟨decided, member, settled⟩
    rcases gateway _ (accounted.decided_requested (Multiset.mem_coe.mp member)) with ⟨id, drawn⟩
    have labelled := settledBy_labelled decided entry settled
    rw [drawn, opening] at labelled
    exact opening_ne_transfer entry.account id labelled
  have opened : ((Multiset.ofList state.history.funded).map openingEntry).filter
      EntryPosted.IsOpening = (Multiset.ofList state.history.funded).map openingEntry := by
    rw [Multiset.filter_eq_self]
    intro entry present
    rcases Multiset.mem_map.mp present with ⟨funded, -, equal⟩
    rw [← equal]
    rfl
  have filtered : unnamed (state.journal.filter EntryPosted.IsOpening) =
      (unnamed state.journal).filter EntryPosted.IsOpening := by
    rw [unnamed, unnamed, ← Multiset.map_coe, ← Multiset.map_coe, Multiset.filter_map]
    rfl
  calc amounts (Multiset.ofList state.journal)
      = amounts (unnamed state.journal) := (amounts_unnamed _).symm
    _ = amounts ((Multiset.ofList state.history.funded).map openingEntry) := by
        rw [journal, amounts_add, amounts_settled, zero_add]
    _ = amounts (unnamed (state.journal.filter EntryPosted.IsOpening)) := by
        rw [filtered, journal, Multiset.filter_add, moved, opened, zero_add]
    _ = amounts (Multiset.ofList (state.journal.filter EntryPosted.IsOpening)) :=
        amounts_unnamed _

/-! ## The ledger and the bank -/

/-- Alice pays bob, bob is funded between the debit and the credit, and alice's
next payment is refused. -/
def interleavedFunding : List Action :=
  let fundAlice := Sending.opening "alice" 100 "E-1"
  let fundBob := Sending.opening "bob" 5 "E-4"
  let rent := requestTransfer "1" "alice" "bob" 60 "rent"
  let more := requestTransfer "2" "alice" "bob" 70 "more"
  let refused := Sending.rejection (refusal more "insufficient funds: alice holds 40")
  [.start 0, .fund "alice" 100 "E-1", .store ⟨fundAlice, false⟩,
    .confirm ⟨fundAlice, true⟩ "E-2", .request "1" "alice" "bob" 60 "rent",
    .request "2" "alice" "bob" 70 "more", .deliver rent "E-3", .store ⟨.debit rent "E-3", false⟩,
    .fund "bob" 5 "E-4", .confirm ⟨.debit rent "E-3", true⟩ "E-5", .store ⟨fundBob, false⟩,
    .confirm ⟨fundBob, true⟩ "E-6", .store ⟨.credit rent "E-5", false⟩,
    .confirm ⟨.credit rent "E-5", true⟩ "E-7", .deliver more "E-8", .store ⟨refused, false⟩,
    .confirm ⟨refused, true⟩ "E-9", .notice (refusal more "insufficient funds: alice holds 40")]

end AmqpApps.Ledger
