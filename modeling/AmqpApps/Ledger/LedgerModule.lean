import AmqpApps.Foundation.TransitionSystem
import AmqpApps.Ledger.Balances
import Mathlib.Data.Multiset.Bind

/-! # The writer, its queues and its journal

One `LedgerModule` on one event loop. A call of `_apply` or `fund` runs from
one await to the next without interruption, and every await of theirs is a
send: so a call in progress is what it is sending and whether the broker has
stored that yet. Everything between two awaits is an executable function; the
order in which the calls, the broker and the failures take their turns is the
run's.
-/

namespace AmqpApps.Ledger

/-! ## The code between the awaits -/

/-! A send to the journal says which of the three `_post` calls of the source
it is, and what is sent follows from that. -/

inductive Sending
  | opening (account : String) (amountMinor : Int) (entryId : String)
  | debit (transfer : Transfer) (entryId : String)
  | credit (transfer : Transfer) (entryId : String)
  | rejection (rejected : TransferRejected)
deriving DecidableEq

/-- A call at an await: what it is sending, and whether the broker has it. -/
structure Call where
  sending : Sending
  stored : Bool
deriving DecidableEq

def fundEntry (account : String) (amountMinor : Int) (entryId : String) : EntryPosted :=
  ⟨entryId, "OPENING-" ++ account, account, amountMinor, "opening balance"⟩

def debitEntry (transfer : Transfer) (entryId : String) : EntryPosted :=
  ⟨entryId, transfer.transferId, transfer.from_, -transfer.amountMinor,
    transfer.description⟩

def creditEntry (transfer : Transfer) (entryId : String) : EntryPosted :=
  ⟨entryId, transfer.transferId, transfer.to_, transfer.amountMinor,
    transfer.description⟩

namespace Sending

def entries : Sending → List EntryPosted
  | opening account amountMinor entryId => [fundEntry account amountMinor entryId]
  | debit transfer entryId => [debitEntry transfer entryId]
  | credit transfer entryId => [creditEntry transfer entryId]
  | rejection _ => []

def refusals : Sending → List TransferRejected
  | rejection rejected => [rejected]
  | _ => []

/-- Whether a handler of `_apply` is sending this, and not a caller of `fund`. -/
def handled : Sending → Bool
  | opening .. => false
  | _ => true

end Sending

structure LedgerModule where
  balances : Balances String Int
  posted : Nat
  rejected : Nat

namespace LedgerModule

/-- `start`, once `rebuilt_from` has read these entries. -/
def start (journal : List EntryPosted) : LedgerModule where
  balances := Balances.readThrough (journal.map EntryPosted.line)
  posted := 0
  rejected := 0

/-- `_reject` up to its send. The refusal is counted before it is announced. -/
def reject (ledger : LedgerModule) (transfer : Transfer) (reason : String) :
    LedgerModule × Call :=
  ({ ledger with rejected := ledger.rejected + 1 },
    ⟨.rejection ⟨transfer.transferId, transfer.from_, transfer.to_,
      transfer.amountMinor, reason⟩, false⟩)

/-- `_apply` up to its first await. -/
def apply (ledger : LedgerModule) (transfer : Transfer) (entryId : String) :
    LedgerModule × Call :=
  let available := ledger.balances.of transfer.from_
  if transfer.amountMinor ≤ 0 then
    ledger.reject transfer "a transfer must be for a positive amount"
  else if available < transfer.amountMinor then
    ledger.reject transfer s!"insufficient funds: {transfer.from_} holds {available}"
  else
    (ledger, ⟨.debit transfer entryId, false⟩)

def fund (account : String) (amountMinor : Int) (entryId : String) : Call :=
  ⟨.opening account amountMinor entryId, false⟩

/-- `_post` after its send has returned. -/
def postReturned (ledger : LedgerModule) (entry : EntryPosted) : LedgerModule :=
  { ledger with
    balances := ledger.balances.apply entry.line
    posted := ledger.posted + 1 }

/-- A call resumed after its send, up to its next await if it has one. -/
def resume (ledger : LedgerModule) (entryId : String) :
    Sending → LedgerModule × Option Call
  | .opening account amountMinor sent =>
      (ledger.postReturned (fundEntry account amountMinor sent), none)
  | .debit transfer sent =>
      (ledger.postReturned (debitEntry transfer sent), some ⟨.credit transfer entryId, false⟩)
  | .credit transfer sent => (ledger.postReturned (creditEntry transfer sent), none)
  | .rejection _ => (ledger, none)

/-- The decision of `_apply`: refused without touching the balances, or
accepted with the debit on its way. -/
theorem apply_cases (ledger : LedgerModule) (transfer : Transfer) (entryId : String) :
    ((transfer.amountMinor ≤ 0 ∨
        ledger.balances.of transfer.from_ < transfer.amountMinor) ∧
      ∃ reason, ledger.apply transfer entryId = ledger.reject transfer reason) ∨
    (0 < transfer.amountMinor ∧
      transfer.amountMinor ≤ ledger.balances.of transfer.from_ ∧
      ledger.apply transfer entryId = (ledger, ⟨.debit transfer entryId, false⟩)) := by
  rw [apply]
  by_cases nonpositive : transfer.amountMinor ≤ 0
  · exact .inl ⟨.inl nonpositive, _, if_pos nonpositive⟩
  · by_cases short : ledger.balances.of transfer.from_ < transfer.amountMinor
    · exact .inl ⟨.inr short, _, by simp only [if_neg nonpositive, if_pos short]; rfl⟩
    · exact .inr ⟨by omega, by omega, by simp only [if_neg nonpositive, if_neg short]⟩

@[simp] theorem apply_balances (ledger : LedgerModule) (transfer : Transfer)
    (entryId : String) : (ledger.apply transfer entryId).1.balances = ledger.balances := by
  rcases ledger.apply_cases transfer entryId with ⟨-, reason, ran⟩ | ⟨-, -, ran⟩ <;>
    simp [ran, reject]

@[simp] theorem apply_stored (ledger : LedgerModule) (transfer : Transfer)
    (entryId : String) : (ledger.apply transfer entryId).2.stored = false := by
  rcases ledger.apply_cases transfer entryId with ⟨-, reason, ran⟩ | ⟨-, -, ran⟩ <;>
    simp [ran, reject]

def balanceOf (ledger : LedgerModule) (account : String) : Int :=
  ledger.balances.of account

def snapshot (ledger : LedgerModule) : Tally String Int := ledger.balances.snapshot

end LedgerModule

/-- `TransferGateway.request`: the command for an id `uuid4` has drawn. -/
def requestTransfer (id from_ to_ : String) (amountMinor : Int) (description : String) :
    Transfer :=
  ⟨"T-" ++ id, from_, to_, amountMinor, description⟩

/-! ## The system -/

/-- What an onlooker writes down; nothing reads it. `strays` are the entries
the broker stored although their send had raised, or went on to raise, since
the writer started. -/
structure History where
  requested : List Transfer
  decided : List (Transfer × Bool)
  funded : List (String × Int)
  strays : List EntryPosted

structure State where
  journal : List EntryPosted
  commands : Multiset Transfer
  rejections : Multiset TransferRejected
  writer : Option LedgerModule
  calls : Multiset Call
  /-- Sent by calls that have ended, and not stored so far or lost. -/
  adrift : Multiset EntryPosted
  /-- `TransferGateway.refused`. -/
  refused : List TransferRejected
  history : History

inductive Action
  | request (id from_ to_ : String) (amountMinor : Int) (description : String)
  /-- A command handed out again: after a failure, or a lost acknowledgement. -/
  | redeliver (transfer : Transfer)
  | deliver (transfer : Transfer) (entryId : String)
  | fund (account : String) (amountMinor : Int) (entryId : String)
  /-- The broker stores what a call has sent. -/
  | store (call : Call)
  /-- A send returns. -/
  | confirm (call : Call) (entryId : String)
  /-- A send raises, and its call with it. -/
  | fail (call : Call)
  /-- What was sent arrives after all, or never will. -/
  | storeLate (entry : EntryPosted)
  | lose (entry : EntryPosted)
  | crash
  /-- A new writer, whose rebuild read so many entries. -/
  | start (length : Nat)
  /-- `TransferGateway._noticed`. -/
  | notice (rejection : TransferRejected)
deriving DecidableEq

def Call.accepts : Call → Bool
  | ⟨.debit .., _⟩ => true
  | _ => false

def unstored (calls : Multiset Call) : Multiset EntryPosted :=
  (calls.filter fun call => call.stored = false).bind fun call => call.sending.entries

namespace State

def initial : State where
  journal := []
  commands := 0
  rejections := 0
  writer := none
  calls := 0
  adrift := 0
  refused := []
  history := ⟨[], [], [], []⟩

def Enabled (state : State) : Action → Prop
  | .request .. => True
  | .redeliver transfer => transfer ∈ state.history.requested
  | .deliver transfer _ => transfer ∈ state.commands ∧ state.writer.isSome
  | .fund .. => state.writer.isSome
  | .store call => call ∈ state.calls ∧ call.stored = false
  | .confirm call _ => call ∈ state.calls ∧ call.stored = true
  | .fail call => call ∈ state.calls
  | .storeLate entry => entry ∈ state.adrift
  | .lose entry => entry ∈ state.adrift
  | .crash => state.writer.isSome
  | .start _ => state.writer = none
  | .notice rejection => rejection ∈ state.rejections

instance (state : State) (action : Action) : Decidable (state.Enabled action) := by
  rcases action with ⟨⟩ <;> unfold Enabled <;> infer_instance

def take (state : State) (sending : Sending) : State :=
  { state with
    journal := state.journal ++ sending.entries
    rejections := Multiset.ofList sending.refusals + state.rejections }

def stray (state : State) (entries : List EntryPosted) : State :=
  { state with history := { state.history with strays := state.history.strays ++ entries } }

def perform (state : State) : Action → State
  | .request id from_ to_ amountMinor description =>
      let transfer := requestTransfer id from_ to_ amountMinor description
      { state with
        commands := transfer ::ₘ state.commands
        history := { state.history with
          requested := state.history.requested ++ [transfer] } }
  | .redeliver transfer => { state with commands := transfer ::ₘ state.commands }
  | .deliver transfer entryId =>
      match state.writer with
      | none => state
      | some ledger =>
          let ran := ledger.apply transfer entryId
          { state with
            commands := state.commands.erase transfer
            writer := some ran.1
            calls := ran.2 ::ₘ state.calls
            history := { state.history with
              decided := state.history.decided ++ [(transfer, ran.2.accepts)] } }
  | .fund account amountMinor entryId =>
      { state with
        calls := LedgerModule.fund account amountMinor entryId ::ₘ state.calls
        history := { state.history with
          funded := state.history.funded ++ [(account, amountMinor)] } }
  | .store call =>
      { state.take call.sending with
        calls := ⟨call.sending, true⟩ ::ₘ state.calls.erase call }
  | .confirm call entryId =>
      match state.writer with
      | none => state
      | some ledger =>
          let ran := ledger.resume entryId call.sending
          { state with
            writer := some ran.1
            calls := Multiset.ofList ran.2.toList + state.calls.erase call }
  | .fail call =>
      let ended := { state with calls := state.calls.erase call }
      if call.stored then ended.stray call.sending.entries
      else { ended with adrift := Multiset.ofList call.sending.entries + state.adrift }
  | .storeLate entry =>
      { state with
        journal := state.journal ++ [entry]
        adrift := state.adrift.erase entry }.stray [entry]
  | .lose entry => { state with adrift := state.adrift.erase entry }
  | .crash =>
      { state with
        writer := none
        calls := 0
        adrift := unstored state.calls + state.adrift }
  | .start length =>
      { state with
        writer := some (LedgerModule.start (state.journal.take length))
        history := { state.history with strays := [] } }
  | .notice rejection =>
      { state with
        rejections := state.rejections.erase rejection
        refused := state.refused ++ [rejection] }

end State

def system : TransitionSystem State Action where
  Initial state := state = State.initial
  Enabled := State.Enabled
  perform := State.perform

instance (state : State) (action : Action) : Decidable (system.Enabled state action) :=
  inferInstanceAs (Decidable (state.Enabled action))

/-! ## Transfer ids -/

/-- `uuid4` has not drawn this id for an earlier request. -/
def DistinctIds (state : State) : Action → Prop
  | .request id .. =>
      ∀ transfer ∈ state.history.requested, transfer.transferId ≠ "T-" ++ id
  | _ => True

instance (state : State) (action : Action) : Decidable (DistinctIds state action) := by
  rcases action with ⟨⟩ <;> unfold DistinctIds <;> infer_instance

theorem opening_ne_transfer (account id : String) : "OPENING-" ++ account ≠ "T-" ++ id := by
  intro equal
  have letters := congrArg String.toList equal
  simp at letters

theorem requested_from_gateway {Allowed : State → Action → Prop} {state : State}
    (reached : system.Reached Allowed state) :
    ∀ transfer ∈ state.history.requested, ∃ id, transfer.transferId = "T-" ++ id := by
  apply reached.invariant
    (fun state => ∀ transfer ∈ state.history.requested, ∃ id, transfer.transferId = "T-" ++ id)
  · intro state initial transfer member
    cases initial
    simp [State.initial] at member
  · intro state action before _ enabled transfer member
    cases action with
    | request id from_ to_ amountMinor description =>
        rcases List.mem_append.mp member with old | new
        · exact before transfer old
        · rw [List.mem_singleton.mp new]
          exact ⟨id, rfl⟩
    | deliver command entryId =>
        rcases Option.isSome_iff_exists.mp enabled.2 with ⟨ledger, running⟩
        simp only [system, State.perform, running] at member
        exact before transfer member
    | confirm call entryId =>
        cases running : state.writer <;> simp only [system, State.perform, running] at member <;>
          exact before transfer member
    | fail call =>
        cases stored : call.stored <;>
          simp only [system, State.perform, State.stray, stored] at member <;>
          exact before transfer member
    | _ => exact before transfer member

/-! ## One handler at a time

`consume` without concurrency: a command is handed out when no handler is at
work. Callers of `fund` come and go as they like.
-/

def handlers (calls : Multiset Call) : Nat := calls.countP fun call => call.sending.handled

def OneAtATime (state : State) : Action → Prop
  | .deliver .. => handlers state.calls = 0
  | _ => True

instance (state : State) (action : Action) : Decidable (OneAtATime state action) := by
  rcases action with ⟨⟩ <;> unfold OneAtATime <;> infer_instance

@[simp] theorem handlers_zero : handlers 0 = 0 := rfl

theorem handlers_cons (call : Call) (calls : Multiset Call) :
    handlers (call ::ₘ calls) = handlers calls + if call.sending.handled then 1 else 0 := by
  simp [handlers, Multiset.countP_cons]

private theorem handlers_erase {call : Call} {calls : Multiset Call} (member : call ∈ calls) :
    handlers calls = handlers (calls.erase call) + if call.sending.handled then 1 else 0 := by
  rw [← handlers_cons, Multiset.cons_erase member]

theorem handlers_eq_zero {calls : Multiset Call} (noHandler : handlers calls = 0) :
    ∀ call ∈ calls, call.sending.handled = false := by
  intro call member
  have unhandled := Multiset.countP_eq_zero.mp noHandler call member
  simpa using unhandled

theorem others_unhandled {call : Call} {calls : Multiset Call} (single : handlers calls ≤ 1)
    (member : call ∈ calls) (handled : call.sending.handled = true) :
    ∀ other ∈ calls.erase call, other.sending.handled = false := by
  have split := handlers_erase member
  rw [if_pos handled] at split
  exact handlers_eq_zero (by omega)

private theorem handlers_resume (ledger : LedgerModule) (entryId : String) (sending : Sending) :
    handlers (Multiset.ofList (ledger.resume entryId sending).2.toList) ≤
      if sending.handled then 1 else 0 := by
  cases sending with
  | debit transfer sent =>
      simp [LedgerModule.resume, ← Multiset.cons_zero, handlers_cons, Sending.handled]
  | _ => simp [LedgerModule.resume]

theorem handlers_kept (state : State) (action : Action) (alone : OneAtATime state action)
    (enabled : state.Enabled action) (single : handlers state.calls ≤ 1) :
    handlers (state.perform action).calls ≤ 1 := by
  cases action with
  | deliver transfer entryId =>
      rcases Option.isSome_iff_exists.mp enabled.2 with ⟨ledger, running⟩
      have idle : handlers state.calls = 0 := alone
      simp only [State.perform, running, handlers_cons]
      split <;> omega
  | fund account amountMinor entryId =>
      simpa [State.perform, handlers_cons, LedgerModule.fund, Sending.handled] using single
  | store call =>
      have split := handlers_erase enabled.1
      simp only [State.perform, handlers_cons]
      omega
  | confirm call entryId =>
      have split := handlers_erase enabled.1
      cases running : state.writer with
      | none => simpa [State.perform, running] using single
      | some ledger =>
          have following := handlers_resume ledger entryId call.sending
          simp only [State.perform, running]
          simp only [handlers, Multiset.countP_add] at *
          omega
  | fail call =>
      have split := handlers_erase enabled
      cases stored : call.stored <;> simp [State.perform, State.stray, stored] <;> omega
  | crash => simp [State.perform, handlers]
  | _ => exact single

end AmqpApps.Ledger
