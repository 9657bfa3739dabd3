import AmqpApps.Ledger.Promises
import Mathlib.Data.Multiset.Filter

/-! # How often a transfer is applied

`_apply` decides on balances alone and never asks whether it has seen the
transfer before. So a transfer is applied once as long as it is never accepted
while anything has been sent to the journal for it.
-/

namespace AmqpApps.Ledger

def debits (id : String) (journal : List EntryPosted) : Nat :=
  journal.countP fun entry => entry.transferId = id ∧ entry.amountMinor < 0

def credits (id : String) (journal : List EntryPosted) : Nat :=
  journal.countP fun entry => entry.transferId = id ∧ 0 < entry.amountMinor

/-- What has been sent to the journal and may be in it now or later. -/
def State.written (state : State) : Multiset EntryPosted :=
  Multiset.ofList state.journal + state.adrift +
    state.calls.bind fun call => Multiset.ofList call.sending.entries

/-- The two conditions under which `_apply` posts. -/
def LedgerModule.Affords (ledger : LedgerModule) (transfer : Transfer) : Prop :=
  0 < transfer.amountMinor ∧ transfer.amountMinor ≤ ledger.balanceOf transfer.from_

instance (ledger : LedgerModule) (transfer : Transfer) : Decidable (ledger.Affords transfer) :=
  inferInstanceAs (Decidable (_ ∧ _))

/-- A transfer the balances allow comes to the handler before anything was sent
to the journal for it. -/
def NeverAgain (state : State) : Action → Prop
  | .deliver transfer _ => ∀ ledger ∈ state.writer, ledger.Affords transfer →
      ∀ entry ∈ state.written, entry.transferId ≠ transfer.transferId
  | _ => True

instance (state : State) (action : Action) : Decidable (NeverAgain state action) := by
  rcases action with ⟨⟩ <;> unfold NeverAgain <;> infer_instance

/-! ## The entries of one transfer -/

def about (id : String) (entries : Multiset EntryPosted) : Multiset EntryPosted :=
  entries.filter fun entry => entry.transferId = id

private theorem about_add (id : String) (entries more : Multiset EntryPosted) :
    about id (entries + more) = about id entries + about id more :=
  Multiset.filter_add _ _ _

private theorem about_le {entries more : Multiset EntryPosted} (id : String)
    (fewer : entries ≤ more) : about id entries ≤ about id more :=
  Multiset.filter_le_filter _ fewer

private theorem about_eq_zero {id : String} {entries : Multiset EntryPosted}
    (different : ∀ entry ∈ entries, entry.transferId ≠ id) : about id entries = 0 :=
  Multiset.filter_eq_nil.mpr different

def pair (transfer : Transfer) : Multiset EntryPosted :=
  {debitEntry transfer "", creditEntry transfer ""}

private theorem promised_about {call : Call} {entry : EntryPosted}
    (member : entry ∈ call.promised) :
    ∃ sent ∈ call.sending.entries, sent.transferId = entry.transferId := by
  rcases Multiset.mem_add.mp member with now | later
  · cases stored : call.stored with
    | true => simp [stored] at now
    | false =>
        simp only [stored, Bool.false_eq_true, if_false, unnamed, Multiset.mem_coe,
          List.mem_map] at now
        rcases now with ⟨sent, present, equal⟩
        exact ⟨sent, present, by rw [← equal]; rfl⟩
  · rcases call with ⟨sending, stored⟩
    cases sending with
    | debit transfer entryId =>
        have same : entry = (creditEntry transfer "").unnamed := by
          simpa [Sending.toCome, unnamed] using later
        exact ⟨debitEntry transfer entryId, by simp [Sending.entries], by rw [same]; rfl⟩
    | _ => simp [Sending.toCome] at later

private theorem State.promised_unwritten {state : State} {id : String}
    (unwritten : ∀ entry ∈ state.written, entry.transferId ≠ id) :
    about id state.promised = 0 := by
  apply about_eq_zero
  intro entry member
  simp only [State.promised, unnamed, Multiset.mem_add, Multiset.mem_coe, List.mem_map,
    Multiset.mem_map, Multiset.mem_bind] at member
  rcases member with (⟨sent, present, equal⟩ | ⟨sent, present, equal⟩) | ⟨call, present, held⟩
  · rw [← equal]
    exact unwritten sent (by simp [State.written, present])
  · rw [← equal]
    exact unwritten sent (by simp [State.written, present])
  · rcases promised_about held with ⟨sent, sending, equal⟩
    rw [← equal]
    apply unwritten sent
    simp only [State.written, Multiset.mem_add, Multiset.mem_bind, Multiset.mem_coe]
    exact .inr ⟨call, present, sending⟩

theorem LedgerModule.apply_promised (ledger : LedgerModule) (transfer : Transfer)
    (entryId : String) :
    (ledger.apply transfer entryId).2.promised =
      if ledger.Affords transfer then pair transfer else 0 := by
  rcases ledger.apply_cases transfer entryId with ⟨refused, reason, ran⟩ | ⟨positive, enough, ran⟩
  · have poor : ¬ ledger.Affords transfer := by
      rintro ⟨positive, enough⟩
      simp only [balanceOf] at enough
      omega
    simp [ran, reject, poor, Call.promised, Sending.entries, Sending.toCome]
  · rw [ran, if_pos ⟨positive, enough⟩]
    rfl

/-! ## Runs in which no transfer is accepted again -/

/-- Everything promised for an id stems from one transfer. -/
def PromisedOnce (id : String) (state : State) : Prop :=
  ∃ transfer : Transfer, 0 < transfer.amountMinor ∧ about id state.promised ≤ pair transfer

private theorem PromisedOnce.kept {id : String} (notOpening : ∀ account, "OPENING-" ++ account ≠ id)
    (state : State) (action : Action) (once : PromisedOnce id state)
    (first : NeverAgain state action) (enabled : state.Enabled action) :
    PromisedOnce id (state.perform action) := by
  have balance := congrArg (about id) (state.promised_kept action enabled)
  rw [about_add, about_add] at balance
  -- A step that undertakes nothing for the transfer leaves it as it was.
  have unchanged : about id (state.undertaken action) = 0 →
      PromisedOnce id (state.perform action) := by
    intro nothing
    rcases once with ⟨transfer, positive, bound⟩
    rw [nothing, add_zero] at balance
    exact ⟨transfer, positive, (Multiset.le_iff_exists_add.mpr ⟨_, balance.symm⟩).trans bound⟩
  cases action with
  | deliver transfer entryId =>
      rcases Option.isSome_iff_exists.mp enabled.2 with ⟨ledger, running⟩
      have undertaken : state.undertaken (.deliver transfer entryId) =
          if ledger.Affords transfer then pair transfer else 0 := by
        rw [← ledger.apply_promised transfer entryId]
        simp [State.undertaken, running]
      by_cases accepted : ledger.Affords transfer ∧ transfer.transferId = id
      · rcases accepted with ⟨affords, same⟩
        have unwritten := first ledger running affords
        rw [same] at unwritten
        refine ⟨transfer, affords.1, ?_⟩
        rw [State.promised_unwritten unwritten, zero_add, undertaken, if_pos affords] at balance
        calc about id (state.perform (.deliver transfer entryId)).promised
            ≤ about id (pair transfer) := Multiset.le_iff_exists_add.mpr ⟨_, balance.symm⟩
          _ ≤ pair transfer := Multiset.filter_le _ _
      · apply unchanged
        rw [undertaken]
        split
        · rename_i affords
          have different : transfer.transferId ≠ id := fun same => accepted ⟨affords, same⟩
          simp [about, pair, debitEntry, creditEntry, different, Multiset.filter_singleton,
            Multiset.insert_eq_cons]
        · rfl
  | fund account amountMinor entryId =>
      apply unchanged
      apply about_eq_zero
      intro entry member
      rcases promised_about member with ⟨sent, present, equal⟩
      rw [← equal, List.mem_singleton.mp present]
      exact notOpening account
  | _ => exact unchanged rfl

private theorem PromisedOnce.of_reached {state : State} (reached : system.Reached NeverAgain state)
    {id : String} (notOpening : ∀ account, "OPENING-" ++ account ≠ id) :
    PromisedOnce id state := by
  apply reached.invariant (PromisedOnce id) _ (PromisedOnce.kept notOpening)
  intro state initial
  cases initial
  exact ⟨⟨"", "", "", 1, ""⟩, by decide, Multiset.zero_le _⟩

/-- Of the entries with an id, those in the journal with amounts of one sign are
no more than were promised. -/
theorem journal_count_le {id : String} {state : State} {bound : Multiset EntryPosted}
    (promised : about id state.promised ≤ bound) (sign : Int → Prop) [DecidablePred sign] :
    (state.journal.countP fun entry => entry.transferId = id ∧ sign entry.amountMinor) ≤
      bound.countP fun entry => sign entry.amountMinor := by
  have held : about id (unnamed state.journal) ≤ bound :=
    (about_le id state.journal_le_promised).trans promised
  calc (state.journal.countP fun entry => entry.transferId = id ∧ sign entry.amountMinor)
      = (about id (unnamed state.journal)).countP fun entry => sign entry.amountMinor := by
        simp only [about, unnamed, Multiset.filter_coe, Multiset.coe_countP,
          List.countP_filter, List.countP_map, Function.comp_def, EntryPosted.unnamed,
          Bool.decide_and, Bool.and_comm]
        rfl
    _ ≤ bound.countP fun entry => sign entry.amountMinor := Multiset.countP_le_of_le _ held

/-- A transfer that is never accepted once something was sent for it is applied
at most once, whatever fails, restarts and comes again in between. -/
theorem applied_at_most_once {state : State} (reached : system.Reached NeverAgain state)
    {transfer : Transfer} (member : transfer ∈ state.history.requested) :
    debits transfer.transferId state.journal ≤ 1 ∧
      credits transfer.transferId state.journal ≤ 1 := by
  rcases requested_from_gateway reached transfer member with ⟨id, drawn⟩
  have notOpening : ∀ account, "OPENING-" ++ account ≠ transfer.transferId := by
    intro account
    rw [drawn]
    exact opening_ne_transfer account id
  rcases PromisedOnce.of_reached reached notOpening with ⟨accepted, positive, bound⟩
  have notNegative : ¬ accepted.amountMinor < 0 := by omega
  constructor
  · apply (journal_count_le bound (· < 0)).trans
    simp [pair, debitEntry, creditEntry, positive, notNegative, Multiset.insert_eq_cons,
      ← Multiset.cons_zero]
  · apply (journal_count_le bound (0 < ·)).trans
    simp [pair, debitEntry, creditEntry, positive, notNegative, Multiset.insert_eq_cons,
      ← Multiset.cons_zero]

def rent : Transfer := requestTransfer "1" "alice" "bob" 100 "rent"

/-- Alice is given an amount and pays her rent, and the acknowledgement of her
command is lost after the handler has returned. -/
def rentPaid (amountMinor : Int) : List Action :=
  [.start 0, .fund "alice" amountMinor "E-1",
    .store (LedgerModule.fund "alice" amountMinor "E-1"),
    .confirm ⟨.opening "alice" amountMinor "E-1", true⟩ "E-2",
    .request "1" "alice" "bob" 100 "rent", .deliver rent "E-3",
    .store ⟨.debit rent "E-3", false⟩, .confirm ⟨.debit rent "E-3", true⟩ "E-4",
    .store ⟨.credit rent "E-4", false⟩, .confirm ⟨.credit rent "E-4", true⟩ "E-5",
    .redeliver rent]

/-- With nothing left on the account the second delivery is refused. -/
theorem rent_refused_the_second_time : ∃ state : State,
    state.rejections.map TransferRejected.transferId = {rent.transferId} ∧
      debits rent.transferId state.journal ≤ 1 ∧ credits rent.transferId state.journal ≤ 1 := by
  have reached : system.Reached NeverAgain _ :=
    .of_run (rentPaid 100 ++ [.deliver rent "E-6",
      .store ⟨.rejection ⟨rent.transferId, "alice", "bob", 100,
        "insufficient funds: alice holds 0"⟩, false⟩]) (.start rfl) rfl
  exact ⟨_, rfl, applied_at_most_once reached (.head _)⟩

theorem rent_paid_twice : ¬ ∀ state : State, system.Reached DistinctIds state →
    ∀ transfer ∈ state.history.requested,
      debits transfer.transferId state.journal ≤ 1 ∧
        credits transfer.transferId state.journal ≤ 1 := by
  intro once
  have reached : system.Reached DistinctIds _ :=
    .of_run (rentPaid 250 ++ [.deliver rent "E-6", .store ⟨.debit rent "E-6", false⟩])
      (.start rfl) rfl
  have debited := (once _ reached rent (.head _)).1
  revert debited
  decide

end AmqpApps.Ledger
