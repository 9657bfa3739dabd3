import AmqpApps.Ledger.Linearizability
import Mathlib.Algebra.Order.BigOperators.Group.Multiset

/-! # A fault strands money and does not create any

Each credit that is sent follows a debit that has been stored, within one call.
So whatever fails, and whatever the balances say by then, the transfers of the
journal add up to nothing or less: a credit can be missing, a debit cannot.
-/

namespace AmqpApps.Ledger

def EntryPosted.transferred (entry : EntryPosted) : Int :=
  if entry.IsOpening then 0 else entry.amountMinor

def transferred (entries : List EntryPosted) : Int :=
  (entries.map EntryPosted.transferred).sum

@[simp] theorem transferred_nil : transferred [] = 0 := rfl

@[simp] theorem transferred_append (first second : List EntryPosted) :
    transferred (first ++ second) = transferred first + transferred second := by
  simp [transferred]

@[simp] theorem transferred_singleton (entry : EntryPosted) :
    transferred [entry] = entry.transferred := by
  simp [transferred]

theorem amounts_eq (journal : List EntryPosted) :
    amounts (Multiset.ofList journal) =
      amounts (Multiset.ofList (journal.filter EntryPosted.IsOpening)) +
        transferred journal := by
  simp only [amounts, Multiset.map_coe, Multiset.sum_coe]
  induction journal with
  | nil => rfl
  | cons entry journal induction =>
      by_cases opening : entry.IsOpening <;>
        simp [opening, transferred, EntryPosted.transferred] at induction ⊢ <;> omega

/-! ## Sends of a transfer -/

/-- A transfer that the gateway named and that is for a positive amount. -/
def Transfer.Genuine (transfer : Transfer) : Prop :=
  0 < transfer.amountMinor ∧ ∃ id, transfer.transferId = "T-" ++ id

def Sending.Genuine : Sending → Prop
  | debit transfer _ | credit transfer _ => transfer.Genuine
  | _ => True

@[simp] theorem fundEntry_isOpening (account : String) (amountMinor : Int) (entryId : String) :
    (fundEntry account amountMinor entryId).IsOpening := rfl

private theorem fundEntry_transferred (account : String) (amountMinor : Int) (entryId : String) :
    (fundEntry account amountMinor entryId).transferred = 0 :=
  if_pos rfl

theorem Transfer.Genuine.not_opening {transfer : Transfer} (genuine : transfer.Genuine)
    {entry : EntryPosted} (about : entry.transferId = transfer.transferId) :
    ¬entry.IsOpening := by
  intro opening
  rcases genuine.2 with ⟨id, named⟩
  exact opening_ne_transfer entry.account id (by rw [← named, ← about, opening])

private theorem Transfer.Genuine.debit {transfer : Transfer} (genuine : transfer.Genuine)
    (entryId : String) : (debitEntry transfer entryId).transferred = -transfer.amountMinor :=
  if_neg (genuine.not_opening rfl)

private theorem Transfer.Genuine.credit {transfer : Transfer} (genuine : transfer.Genuine)
    (entryId : String) : (creditEntry transfer entryId).transferred = transfer.amountMinor :=
  if_neg (genuine.not_opening rfl)

/-! ## What may still be credited -/

/-- What storing an entry could bring into the accounts at most. -/
def EntryPosted.exposure (entry : EntryPosted) : Int := max 0 entry.transferred

/-- What a call may yet bring into the accounts: a credit on its way, or the
credit that follows a stored debit. -/
def Call.exposure : Call → Int
  | ⟨.debit transfer _, true⟩ => transfer.amountMinor
  | ⟨.credit transfer _, false⟩ => transfer.amountMinor
  | _ => 0

def exposure (calls : Multiset Call) : Int := (calls.map Call.exposure).sum

def adriftExposure (entries : Multiset EntryPosted) : Int :=
  (entries.map EntryPosted.exposure).sum

@[simp] theorem exposure_zero : exposure 0 = 0 := rfl

@[simp] theorem exposure_cons (call : Call) (calls : Multiset Call) :
    exposure (call ::ₘ calls) = call.exposure + exposure calls := by
  simp [exposure]

@[simp] theorem exposure_add (calls more : Multiset Call) :
    exposure (calls + more) = exposure calls + exposure more := by
  simp [exposure]

private theorem exposure_erase {call : Call} {calls : Multiset Call} (member : call ∈ calls) :
    exposure calls = call.exposure + exposure (calls.erase call) :=
  (Multiset.sum_map_erase member).symm

@[simp] theorem adriftExposure_zero : adriftExposure 0 = 0 := rfl

@[simp] theorem adriftExposure_add (entries more : Multiset EntryPosted) :
    adriftExposure (entries + more) = adriftExposure entries + adriftExposure more := by
  simp [adriftExposure]

private theorem adriftExposure_erase {entry : EntryPosted} {entries : Multiset EntryPosted}
    (member : entry ∈ entries) :
    adriftExposure entries = entry.exposure + adriftExposure (entries.erase entry) :=
  (Multiset.sum_map_erase member).symm

private theorem EntryPosted.exposure_nonneg (entry : EntryPosted) : 0 ≤ entry.exposure :=
  le_max_left 0 _

private theorem EntryPosted.transferred_le (entry : EntryPosted) :
    entry.transferred ≤ entry.exposure :=
  le_max_right 0 _

section Calls

variable {call : Call}

private theorem Call.exposure_nonneg (genuine : call.sending.Genuine) : 0 ≤ call.exposure := by
  rcases call with ⟨sending, stored⟩
  cases sending with
  | debit transfer entryId =>
      have positive : 0 < transfer.amountMinor := genuine.1
      cases stored with
      | false => exact le_rfl
      | true => exact positive.le
  | credit transfer entryId =>
      have positive : 0 < transfer.amountMinor := genuine.1
      cases stored with
      | false => exact positive.le
      | true => exact le_rfl
  | _ => exact le_rfl

/-- Storing what a call sends turns what it could bring in into what it did, and
a stored debit into a claim to its credit. -/
theorem Call.store_exposure (genuine : call.sending.Genuine) (notStored : call.stored = false) :
    transferred call.sending.entries + (⟨call.sending, true⟩ : Call).exposure =
      call.exposure := by
  rcases call with ⟨sending, stored⟩
  cases notStored
  cases sending with
  | opening account amountMinor entryId =>
      simp [Sending.entries, fundEntry_transferred, exposure]
  | debit transfer entryId =>
      have moved := Transfer.Genuine.debit genuine entryId
      simp [Sending.entries, moved, exposure]
  | credit transfer entryId =>
      have moved := Transfer.Genuine.credit genuine entryId
      simp [Sending.entries, moved, exposure]
  | rejection rejected => rfl

/-- Entries left to the broker by a call that ends bring in no more than the
call could. -/
theorem Call.abandoned_exposure (genuine : call.sending.Genuine)
    (notStored : call.stored = false) :
    adriftExposure (Multiset.ofList call.sending.entries) = call.exposure := by
  rcases call with ⟨sending, stored⟩
  cases notStored
  cases sending with
  | opening account amountMinor entryId =>
      simp [Sending.entries, adriftExposure, EntryPosted.exposure, fundEntry_transferred,
        exposure]
  | debit transfer entryId =>
      have positive : 0 < transfer.amountMinor := genuine.1
      have moved := Transfer.Genuine.debit genuine entryId
      simp [Sending.entries, adriftExposure, EntryPosted.exposure, moved, exposure]
      omega
  | credit transfer entryId =>
      have positive : 0 < transfer.amountMinor := genuine.1
      have moved := Transfer.Genuine.credit genuine entryId
      simp [Sending.entries, adriftExposure, EntryPosted.exposure, moved, exposure]
      omega
  | rejection rejected => rfl

end Calls

private theorem exposure_resume (ledger : LedgerModule) (entryId : String) (sending : Sending) :
    exposure (Multiset.ofList (ledger.resume entryId sending).2.toList) =
      (⟨sending, true⟩ : Call).exposure := by
  cases sending <;> simp [LedgerModule.resume, exposure, Call.exposure]

private theorem exposure_unstored {calls : Multiset Call}
    (genuine : ∀ call ∈ calls, call.sending.Genuine) :
    adriftExposure (unstored calls) ≤ exposure calls := by
  induction calls using Multiset.induction_on with
  | empty => rfl
  | cons call calls induction =>
      have mine := genuine call (Multiset.mem_cons_self call calls)
      have others := induction fun other member =>
        genuine other (Multiset.mem_cons_of_mem member)
      have nonneg := Call.exposure_nonneg mine
      rw [unstored_cons, adriftExposure_add, exposure_cons]
      cases stored : call.stored with
      | false =>
          have left := Call.abandoned_exposure mine stored
          simp only [Bool.false_eq_true, if_false]
          omega
      | true =>
          simp only [if_true, adriftExposure_zero]
          omega

/-! ## Runs with any failures -/

/-- Whatever is promised is an opening that was asked for, or one half of a
transfer the gateway named. -/
def State.Attributed (state : State) : Prop :=
  ∀ entry ∈ state.promised,
    (∃ funded ∈ state.history.funded, entry = openingEntry funded) ∨
      ∃ id, entry.transferId = "T-" ++ id

structure Contained (state : State) : Prop where
  commands : ∀ transfer ∈ state.commands, ∃ id, transfer.transferId = "T-" ++ id
  calls : ∀ call ∈ state.calls, call.sending.Genuine
  bounded : transferred state.journal + exposure state.calls + adriftExposure state.adrift ≤ 0
  prefixes : ∀ earlier, earlier <+: state.journal → transferred earlier ≤ 0

namespace Contained

variable {state : State}

private theorem initial : Contained State.initial where
  commands _ member := by simp [State.initial] at member
  calls _ member := by simp [State.initial] at member
  bounded := le_rfl
  prefixes earlier shorter := by
    rw [List.prefix_nil.mp shorter]
    exact le_rfl

/-- One entry more at most, and the new end of the journal is bounded by what
the state could bring in. -/
theorem extended (contained : Contained state) {later : State} {more : List EntryPosted}
    (grown : later.journal = state.journal ++ more) (one : more.length ≤ 1)
    (commands : ∀ transfer ∈ later.commands, ∃ id, transfer.transferId = "T-" ++ id)
    (calls : ∀ call ∈ later.calls, call.sending.Genuine)
    (bounded : transferred later.journal + exposure later.calls +
      adriftExposure later.adrift ≤ 0) : Contained later where
  commands := commands
  calls := calls
  bounded := bounded
  prefixes earlier shorter := by
    have atEnd : transferred later.journal ≤ 0 := by
      have inCalls : 0 ≤ exposure later.calls := by
        apply Multiset.sum_nonneg
        intro amount member
        rcases Multiset.mem_map.mp member with ⟨call, held, equal⟩
        rw [← equal]
        exact Call.exposure_nonneg (calls call held)
      have inAdrift : 0 ≤ adriftExposure later.adrift := by
        apply Multiset.sum_nonneg
        intro amount member
        rcases Multiset.mem_map.mp member with ⟨entry, -, equal⟩
        rw [← equal]
        exact entry.exposure_nonneg
      omega
    cases more with
    | nil =>
        rw [grown, List.append_nil] at shorter
        exact contained.prefixes earlier shorter
    | cons entry rest =>
        have single : rest = [] := by
          rw [List.length_cons] at one
          exact List.length_eq_zero_iff.mp (by omega)
        rw [grown, single] at shorter
        rcases List.prefix_concat_iff.mp shorter with whole | before
        · rw [whole, ← single, ← grown]
          exact atEnd
        · exact contained.prefixes earlier before

private theorem erased (contained : Contained state) (call : Call) :
    ∀ other ∈ state.calls.erase call, other.sending.Genuine :=
  fun other member => contained.calls other (Multiset.mem_of_mem_erase member)

private theorem deliver (contained : Contained state) {transfer : Transfer} (entryId : String)
    (waiting : transfer ∈ state.commands) (running : state.writer.isSome) :
    Contained (state.perform (.deliver transfer entryId)) := by
  rcases Option.isSome_iff_exists.mp running with ⟨ledger, running⟩
  have bounded := contained.bounded
  have left : ∀ other ∈ state.commands.erase transfer, ∃ id, other.transferId = "T-" ++ id :=
    fun other member => contained.commands other (Multiset.mem_of_mem_erase member)
  simp only [State.perform, running]
  rcases ledger.apply_cases transfer entryId with ⟨-, reason, ran⟩ | ⟨positive, -, ran⟩
  · refine ⟨left, ?_, ?_, contained.prefixes⟩
    · intro call member
      rcases Multiset.mem_cons.mp member with new | old
      · rw [new, ran]
        trivial
      · exact contained.calls call old
    · simpa [ran, LedgerModule.reject, Call.exposure] using bounded
  · refine ⟨left, ?_, ?_, contained.prefixes⟩
    · intro call member
      rcases Multiset.mem_cons.mp member with new | old
      · rw [new, ran]
        exact ⟨positive, contained.commands transfer waiting⟩
      · exact contained.calls call old
    · simpa [ran, Call.exposure] using bounded

private theorem store (contained : Contained state) {call : Call} (member : call ∈ state.calls)
    (notStored : call.stored = false) : Contained (state.perform (.store call)) := by
  have genuine := contained.calls call member
  have moved := Call.store_exposure genuine notStored
  have split := exposure_erase member
  have bounded := contained.bounded
  have one : call.sending.entries.length ≤ 1 := by
    cases call.sending <;> simp [Sending.entries]
  refine contained.extended rfl one contained.commands ?_ ?_
  · intro other present
    rcases Multiset.mem_cons.mp present with same | old
    · rw [same]
      exact genuine
    · exact contained.erased call other old
  · simp only [State.perform, State.take, transferred_append, exposure_cons]
    omega

private theorem confirm (contained : Contained state) {call : Call} (entryId : String)
    (member : call ∈ state.calls) (stored : call.stored = true) :
    Contained (state.perform (.confirm call entryId)) := by
  cases running : state.writer with
  | none =>
      have idle : state.perform (.confirm call entryId) = state := by
        simp [State.perform, running]
      rw [idle]
      exact contained
  | some ledger =>
      have genuine := contained.calls call member
      have split := exposure_erase member
      have bounded := contained.bounded
      have resumed := exposure_resume ledger entryId call.sending
      have same : (⟨call.sending, true⟩ : Call) = call := by rw [← stored]
      rw [same] at resumed
      simp only [State.perform, running]
      refine ⟨contained.commands, ?_, ?_, contained.prefixes⟩
      · intro other present
        rcases Multiset.mem_add.mp present with next | old
        · rcases call with ⟨sending, sent⟩
          cases sending with
          | debit transfer sent =>
              have credit : other = ⟨.credit transfer entryId, false⟩ := by
                simpa [LedgerModule.resume] using next
              rw [credit]
              exact genuine
          | _ => simp [LedgerModule.resume] at next
        · exact contained.erased call other old
      · simp only [exposure_add]
        omega

private theorem fail (contained : Contained state) {call : Call} (member : call ∈ state.calls) :
    Contained (state.perform (.fail call)) := by
  have genuine := contained.calls call member
  have nonneg := Call.exposure_nonneg genuine
  have split := exposure_erase member
  have bounded := contained.bounded
  cases stored : call.stored with
  | false =>
      have left := Call.abandoned_exposure genuine stored
      simp only [State.perform, stored, Bool.false_eq_true, if_false]
      refine ⟨contained.commands, contained.erased call, ?_, contained.prefixes⟩
      simp only [adriftExposure_add]
      omega
  | true =>
      simp only [State.perform, State.stray, stored, if_true]
      refine ⟨contained.commands, contained.erased call, ?_, contained.prefixes⟩
      change transferred state.journal + exposure (state.calls.erase call) +
        adriftExposure state.adrift ≤ 0
      omega

private theorem crash (contained : Contained state) : Contained (state.perform .crash) := by
  have abandoned := exposure_unstored contained.calls
  have bounded := contained.bounded
  refine ⟨contained.commands, ?_, ?_, contained.prefixes⟩
  · intro call member
    exact absurd member (Multiset.notMem_zero call)
  · simp only [State.perform, adriftExposure_add, exposure_zero]
    omega

private theorem kept (state : State) (action : Action)
    (gateway : ∀ transfer ∈ state.history.requested, ∃ id, transfer.transferId = "T-" ++ id)
    (contained : Contained state) (enabled : state.Enabled action) :
    Contained (state.perform action) := by
  have bounded := contained.bounded
  cases action with
  | request id from_ to_ amountMinor description =>
      refine ⟨?_, contained.calls, bounded, contained.prefixes⟩
      intro transfer member
      rcases Multiset.mem_cons.mp member with new | old
      · rw [new]
        exact ⟨id, rfl⟩
      · exact contained.commands transfer old
  | redeliver transfer =>
      refine ⟨?_, contained.calls, bounded, contained.prefixes⟩
      intro other member
      rcases Multiset.mem_cons.mp member with again | old
      · rw [again]
        exact gateway transfer enabled
      · exact contained.commands other old
  | deliver transfer entryId => exact contained.deliver entryId enabled.1 enabled.2
  | fund account amountMinor entryId =>
      refine ⟨contained.commands, ?_, ?_, contained.prefixes⟩
      · intro call member
        rcases Multiset.mem_cons.mp member with new | old
        · rw [new]
          trivial
        · exact contained.calls call old
      · simpa [State.perform, LedgerModule.fund, Call.exposure] using bounded
  | store call => exact contained.store enabled.1 enabled.2
  | confirm call entryId => exact contained.confirm entryId enabled.1 enabled.2
  | fail call => exact contained.fail enabled
  | storeLate entry =>
      have split := adriftExposure_erase enabled
      have moved := entry.transferred_le
      have grown : (state.perform (.storeLate entry)).journal = state.journal ++ [entry] := rfl
      refine contained.extended grown le_rfl contained.commands contained.calls ?_
      simp only [State.perform, State.stray, transferred_append, transferred_singleton]
      omega
  | lose entry =>
      have split := adriftExposure_erase enabled
      have nonneg := entry.exposure_nonneg
      refine ⟨contained.commands, contained.calls, ?_, contained.prefixes⟩
      simp only [State.perform]
      omega
  | crash => exact contained.crash
  | start length => exact ⟨contained.commands, contained.calls, bounded, contained.prefixes⟩
  | notice rejection =>
      exact ⟨contained.commands, contained.calls, bounded, contained.prefixes⟩

theorem of_reached {Allowed : State → Action → Prop} (reached : system.Reached Allowed state) :
    Contained state := by
  apply reached.invariant_using _ Contained (fun state => requested_from_gateway)
  · intro state first
    cases first
    exact .initial
  · intro state action gateway contained _ enabled
    exact contained.kept state action gateway enabled

end Contained

/-! ## Which entries are openings -/

private theorem State.attributed_kept (state : State) (action : Action)
    (commands : ∀ transfer ∈ state.commands, ∃ id, transfer.transferId = "T-" ++ id)
    (attributed : state.Attributed) (enabled : state.Enabled action) :
    (state.perform action).Attributed := by
  intro entry member
  have asked : ∀ funded ∈ state.history.funded,
      funded ∈ (state.perform action).history.funded := by
    intro funded before
    cases action with
    | fund account amountMinor entryId => exact List.mem_append_left _ before
    | deliver transfer entryId =>
        cases running : state.writer <;> simpa [perform, running] using before
    | confirm call entryId =>
        cases running : state.writer <;> simpa [perform, running] using before
    | fail call =>
        cases stored : call.stored <;> simpa [perform, stray, stored] using before
    | _ => exact before
  have promised : entry ∈ state.promised + state.undertaken action := by
    rw [← state.promised_kept action enabled]
    exact Multiset.mem_add.mpr (.inl member)
  rcases Multiset.mem_add.mp promised with old | new
  · rcases attributed entry old with ⟨funded, before, opened⟩ | named
    · exact .inl ⟨funded, asked funded before, opened⟩
    · exact .inr named
  · cases action with
    | deliver transfer entryId =>
        rcases Option.isSome_iff_exists.mp enabled.2 with ⟨ledger, running⟩
        simp only [undertaken, running, LedgerModule.apply_promised] at new
        rcases commands transfer enabled.1 with ⟨id, named⟩
        split at new
        · have labelled := settledBy_labelled (transfer, true) entry new
          exact .inr ⟨id, labelled.trans named⟩
        · exact absurd new (Multiset.notMem_zero entry)
    | fund account amountMinor entryId =>
        refine .inl ⟨(account, amountMinor), by simp [perform], ?_⟩
        simpa [undertaken, LedgerModule.fund, Call.promised, Sending.entries, Sending.toCome,
          unnamed, EntryPosted.unnamed, fundEntry, openingEntry] using new
    | _ => exact absurd new (Multiset.notMem_zero entry)

private theorem State.attributed {Allowed : State → Action → Prop} {state : State}
    (reached : system.Reached Allowed state) : state.Attributed := by
  apply reached.invariant_using _ State.Attributed (fun state => Contained.of_reached)
  · intro state first
    cases first
    intro entry member
    simp [State.promised, State.initial] at member
  · intro state action contained attributed _ enabled
    exact state.attributed_kept action contained.commands attributed enabled

private theorem isOpening_iff {Allowed : State → Action → Prop} {state : State}
    (reached : system.Reached Allowed state) {entry : EntryPosted}
    (posted : entry ∈ state.journal) :
    entry.IsOpening ↔
      ∃ funded ∈ state.history.funded, entry = fundEntry funded.1 funded.2 entry.entryId := by
  constructor
  · intro opening
    have promised : entry.unnamed ∈ state.promised :=
      Multiset.mem_of_le state.journal_le_promised (List.mem_map_of_mem posted)
    rcases State.attributed reached entry.unnamed promised with
      ⟨funded, asked, opened⟩ | ⟨id, named⟩
    · refine ⟨funded, asked, ?_⟩
      simp only [EntryPosted.unnamed, openingEntry, fundEntry, EntryPosted.mk.injEq] at opened
      rcases entry with ⟨entryId, transferId, account, amountMinor, description⟩
      rcases opened with ⟨-, sameId, sameAccount, sameAmount, sameDescription⟩
      simp only at sameId sameAccount sameAmount sameDescription
      rw [sameId, sameAccount, sameAmount, sameDescription]
      rfl
    · exact absurd (opening.symm.trans named) (opening_ne_transfer entry.account id)
  · rintro ⟨funded, -, equal⟩
    rw [equal]
    rfl

/-- In every run, whatever fails in it, no prefix of the journal holds more than
`fund` has written there. -/
theorem money_never_created {state : State}
    (reached : system.Reached TransitionSystem.anyStep state) :
    ∀ earlier, earlier <+: state.journal →
      amounts (Multiset.ofList earlier) ≤
        amounts (Multiset.ofList (earlier.filter EntryPosted.IsOpening)) ∧
      ∀ entry ∈ earlier, entry.IsOpening ↔
        ∃ funded ∈ state.history.funded, entry = fundEntry funded.1 funded.2 entry.entryId := by
  intro earlier shorter
  have moved := (Contained.of_reached reached).prefixes earlier shorter
  have split := amounts_eq earlier
  refine ⟨by omega, ?_⟩
  intro entry member
  exact isOpening_iff reached (shorter.subset member)

/-- Two handlers at work on one transfer handed out twice, the writer dying with
a debit stored and a credit on its way, which arrives later. -/
def strandedDebit : List Action :=
  let fundAlice := Sending.opening "alice" 100 "E-1"
  let rent := requestTransfer "1" "alice" "bob" 60 "rent"
  [.start 0, .fund "alice" 100 "E-1", .store ⟨fundAlice, false⟩,
    .confirm ⟨fundAlice, true⟩ "E-2", .request "1" "alice" "bob" 60 "rent", .redeliver rent,
    .deliver rent "E-3", .deliver rent "E-4", .store ⟨.debit rent "E-3", false⟩,
    .store ⟨.debit rent "E-4", false⟩, .confirm ⟨.debit rent "E-3", true⟩ "E-5", .crash,
    .storeLate (creditEntry rent "E-5"), .start 1]

theorem stranded_debit_creates_nothing : ∃ state : State,
    state.journal.map EntryPosted.amountMinor = [100, -60, -60, 60] ∧
      amounts (Multiset.ofList state.journal) ≤
        amounts (Multiset.ofList (state.journal.filter EntryPosted.IsOpening)) := by
  have reached : system.Reached TransitionSystem.anyStep _ :=
    .of_run strandedDebit (.start rfl) rfl
  exact ⟨_, by decide, (money_never_created reached _ (List.prefix_refl _)).1⟩

end AmqpApps.Ledger
