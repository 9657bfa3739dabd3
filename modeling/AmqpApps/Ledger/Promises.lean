import AmqpApps.Foundation.KeyedBags
import AmqpApps.Ledger.LedgerModule
import Mathlib.Tactic.Abel

/-! # What the ledger has undertaken to post

Every entry of a run was undertaken in one step: when a transfer was accepted
or a funding began. From then on it is in the journal, on its way there, or
still to be sent by a handler at work, and it leaves these only with a call
that ends early or an entry that is lost.
-/

namespace AmqpApps.Ledger

def EntryPosted.unnamed (entry : EntryPosted) : EntryPosted := { entry with entryId := "" }

def unnamed (entries : List EntryPosted) : Multiset EntryPosted :=
  entries.map EntryPosted.unnamed

@[simp] theorem unnamed_nil : unnamed [] = 0 := rfl

@[simp] theorem unnamed_append (first second : List EntryPosted) :
    unnamed (first ++ second) = unnamed first + unnamed second := by
  simp [unnamed]

/-- What a handler has yet to send after this. -/
def Sending.toCome : Sending → List EntryPosted
  | debit transfer _ => [creditEntry transfer ""]
  | _ => []

def Call.promised (call : Call) : Multiset EntryPosted :=
  (if call.stored then 0 else unnamed call.sending.entries) + unnamed call.sending.toCome

def State.promised (state : State) : Multiset EntryPosted :=
  unnamed state.journal + state.adrift.map EntryPosted.unnamed +
    state.calls.bind Call.promised

def State.undertaken (state : State) : Action → Multiset EntryPosted
  | .deliver transfer entryId =>
      match state.writer with
      | none => 0
      | some ledger => (ledger.apply transfer entryId).2.promised
  | .fund account amountMinor entryId =>
      (LedgerModule.fund account amountMinor entryId).promised
  | _ => 0

def State.dropped (state : State) : Action → Multiset EntryPosted
  | .fail call => unnamed call.sending.toCome
  | .lose entry => {entry.unnamed}
  | .crash => state.calls.bind fun call => unnamed call.sending.toCome
  | _ => 0

theorem unstored_cons (call : Call) (calls : Multiset Call) :
    unstored (call ::ₘ calls) =
      (if call.stored then 0 else Multiset.ofList call.sending.entries) + unstored calls := by
  cases stored : call.stored <;> simp [unstored, stored]

private theorem promised_resume (ledger : LedgerModule) (entryId : String) (sending : Sending) :
    (Multiset.ofList (ledger.resume entryId sending).2.toList).bind Call.promised =
      unnamed sending.toCome := by
  cases sending with
  | debit transfer sent =>
      simp [LedgerModule.resume, Call.promised, Sending.entries, Sending.toCome, unnamed,
        creditEntry, EntryPosted.unnamed]
  | _ => simp [LedgerModule.resume, Sending.toCome]

private theorem promised_abandoned (calls : Multiset Call) :
    calls.bind Call.promised =
      (unstored calls).map EntryPosted.unnamed +
        calls.bind fun call => unnamed call.sending.toCome := by
  induction calls using Multiset.induction_on with
  | empty => rfl
  | cons call calls induction =>
      rw [Multiset.cons_bind, Multiset.cons_bind, unstored_cons, induction, Multiset.map_add]
      cases stored : call.stored with
      | false =>
          simp only [Call.promised, stored, unnamed, Bool.false_eq_true, if_false,
            Multiset.map_coe]
          abel
      | true =>
          simp only [Call.promised, stored, if_true, Multiset.map_zero]
          abel

/-- Nothing is posted that was not undertaken, and what was undertaken is
posted, on its way, to come, or given up. -/
theorem State.promised_kept (state : State) (action : Action)
    (enabled : state.Enabled action) :
    (state.perform action).promised + state.dropped action =
      state.promised + state.undertaken action := by
  cases action with
  | deliver transfer entryId =>
      rcases Option.isSome_iff_exists.mp enabled.2 with ⟨ledger, running⟩
      simp only [perform, promised, undertaken, dropped, running, Multiset.cons_bind]
      abel
  | fund account amountMinor entryId =>
      simp only [perform, promised, undertaken, dropped, Multiset.cons_bind]
      abel
  | store call =>
      rcases enabled with ⟨member, notStored⟩
      simp only [perform, take, promised, undertaken, dropped, Multiset.cons_bind,
        bind_erase Call.promised member, Call.promised, notStored, unnamed_append]
      simp only [Bool.false_eq_true, if_false, if_true]
      abel
  | confirm call entryId =>
      rcases enabled with ⟨member, stored⟩
      cases running : state.writer with
      | none => simp [perform, promised, undertaken, dropped, running]
      | some ledger =>
          simp only [perform, promised, undertaken, dropped, running, Multiset.add_bind,
            promised_resume, bind_erase Call.promised member, Call.promised, stored, if_true]
          abel
  | fail call =>
      have member : call ∈ state.calls := enabled
      cases stored : call.stored with
      | false =>
          simp only [perform, stray, promised, undertaken, dropped, bind_erase Call.promised member,
            Call.promised, stored, Bool.false_eq_true, if_false, Multiset.map_add,
            Multiset.map_coe, unnamed]
          abel
      | true =>
          simp only [perform, stray, promised, undertaken, dropped, bind_erase Call.promised member,
            Call.promised, stored, if_true]
          abel
  | storeLate entry =>
      have split : state.adrift.map EntryPosted.unnamed =
          entry.unnamed ::ₘ (state.adrift.erase entry).map EntryPosted.unnamed := by
        rw [← Multiset.map_cons, Multiset.cons_erase enabled]
      simp only [perform, stray, promised, undertaken, dropped, split, unnamed_append,
        ← Multiset.singleton_add]
      have one : unnamed [entry] = {entry.unnamed} := rfl
      rw [one]
      abel
  | lose entry =>
      have split : state.adrift.map EntryPosted.unnamed =
          entry.unnamed ::ₘ (state.adrift.erase entry).map EntryPosted.unnamed := by
        rw [← Multiset.map_cons, Multiset.cons_erase enabled]
      simp only [perform, promised, undertaken, dropped, split, ← Multiset.singleton_add]
      abel
  | crash =>
      simp only [perform, promised, undertaken, dropped, promised_abandoned state.calls,
        Multiset.map_add, Multiset.zero_bind]
      abel
  | _ => simp [perform, promised, undertaken, dropped]

theorem State.journal_le_promised (state : State) : unnamed state.journal ≤ state.promised := by
  rw [State.promised, add_assoc]
  exact Multiset.le_add_right _ _

end AmqpApps.Ledger
