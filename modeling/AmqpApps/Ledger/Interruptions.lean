import AmqpApps.Foundation.Runs
import AmqpApps.Ledger.NoCreation

/-! # What an interruption costs

The two entries of a transfer are appended one after the other, and a crash between them
leaves the journal with the first. That is all it can do: the journal is made up of whole
transfers, and each failed send or dead writer tears or loses one transfer at most.
-/

namespace AmqpApps.Ledger

/-- The handlers that an action ends before they are done. -/
def State.interrupted (state : State) : Action → Nat
  | .fail call => handlers {call}
  | .crash => handlers state.calls
  | _ => 0

/-- The handlers that are ended so from a state on. -/
def State.interruptions (state : State) : List Action → Nat
  | [] => 0
  | action :: actions => state.interrupted action + (state.perform action).interruptions actions

private theorem State.interruptions_concat (state : State) (actions : List Action)
    (action : Action) :
    state.interruptions (actions ++ [action]) =
      state.interruptions actions + (actions.foldl State.perform state).interrupted action := by
  induction actions generalizing state with
  | nil => simp [interruptions]
  | cons first actions induction =>
      rw [List.cons_append, interruptions, interruptions, induction, List.foldl_cons,
        Nat.add_assoc]

def moved (journal : List EntryPosted) : Multiset EntryPosted :=
  unnamed (journal.filter fun entry => ¬entry.IsOpening)

def lone (transfer : Transfer) : EntryPosted := debitEntry transfer ""

def State.accepted (state : State) : Multiset Transfer :=
  (Multiset.ofList state.history.decided).bind fun decided =>
    if decided.2 then {decided.1} else 0

@[simp] theorem moved_append (first second : List EntryPosted) :
    moved (first ++ second) = moved first + moved second := by
  simp [moved]

@[simp] theorem moved_nil : moved [] = 0 := rfl

private theorem moved_fund (account : String) (amountMinor : Int) (entryId : String) :
    moved [fundEntry account amountMinor entryId] = 0 := by
  have opening := fundEntry_isOpening account amountMinor entryId
  simp [moved, opening]

private theorem Transfer.Genuine.moved_debit {transfer : Transfer} (genuine : transfer.Genuine)
    (entryId : String) : moved [debitEntry transfer entryId] = {lone transfer} := by
  have notOpening : ¬(debitEntry transfer entryId).IsOpening := genuine.not_opening rfl
  rw [moved, List.filter_cons_of_pos (by simpa using notOpening)]
  rfl

private theorem Transfer.Genuine.moved_credit {transfer : Transfer} (genuine : transfer.Genuine)
    (entryId : String) : moved [creditEntry transfer entryId] = {creditEntry transfer ""} := by
  have notOpening : ¬(creditEntry transfer entryId).IsOpening := genuine.not_opening rfl
  rw [moved, List.filter_cons_of_pos (by simpa using notOpening)]
  rfl

/-! ## How far a transfer has come -/

namespace Sending

/-- The transfer of which this is the second entry, and the first is in the journal. -/
def half : Sending → Multiset Transfer
  | credit transfer _ => {transfer}
  | _ => 0

def absent : Sending → Multiset Transfer
  | debit transfer _ => {transfer}
  | _ => 0

end Sending

namespace Call

/-- What is sent and not stored: it is left to the broker when the call ends. -/
def left (call : Call) : Multiset Sending := if call.stored then 0 else {call.sending}

/-- The transfer whose second entry is not sent when the call ends. -/
def severed (call : Call) : Multiset Transfer := if call.stored then call.sending.absent else 0

def half (call : Call) : Multiset Transfer := call.left.bind Sending.half + call.severed

def absent (call : Call) : Multiset Transfer := call.left.bind Sending.absent

private theorem left_handled (call : Call) :
    (call.left.countP fun sending => sending.handled) + call.severed.card ≤
      if call.sending.handled then 1 else 0 := by
  rcases call with ⟨sending, stored⟩
  cases stored <;> cases sending <;>
    simp [left, severed, Sending.absent, Sending.handled, ← Multiset.cons_zero]

private theorem left_entries (calls : Multiset Call) :
    unstored calls =
      (calls.bind left).bind fun sending => Multiset.ofList sending.entries := by
  induction calls using Multiset.induction_on with
  | empty => rfl
  | cons call calls induction =>
      rw [unstored_cons, induction, Multiset.cons_bind, Multiset.add_bind]
      cases stored : call.stored <;> simp [left, stored]

private theorem resume_half (ledger : LedgerModule) (entryId : String) (sending : Sending) :
    (Multiset.ofList (ledger.resume entryId sending).2.toList).bind half =
      half ⟨sending, true⟩ := by
  cases sending <;>
    simp [LedgerModule.resume, half, left, severed, Sending.half, Sending.absent]

private theorem resume_absent (ledger : LedgerModule) (entryId : String) (sending : Sending) :
    (Multiset.ofList (ledger.resume entryId sending).2.toList).bind absent = 0 := by
  cases sending <;> simp [LedgerModule.resume, absent, left, Sending.absent]

end Call

/-- Ending calls leave to the broker and sever one transfer at most for each handler. -/
theorem left_handlers (calls : Multiset Call) :
    ((calls.bind Call.left).countP fun sending => sending.handled) +
      (calls.bind Call.severed).card ≤ handlers calls := by
  induction calls using Multiset.induction_on with
  | empty => rfl
  | cons call calls induction =>
      have mine := call.left_handled
      rw [Multiset.cons_bind, Multiset.cons_bind, Multiset.countP_add, Multiset.card_add,
        handlers_cons]
      omega

private theorem bind_half (calls : Multiset Call) :
    calls.bind Call.half =
      (calls.bind Call.left).bind Sending.half + calls.bind Call.severed := by
  rw [Multiset.bind_assoc, ← Multiset.bind_add]
  rfl

private theorem bind_absent (calls : Multiset Call) :
    calls.bind Call.absent = (calls.bind Call.left).bind Sending.absent := by
  rw [Multiset.bind_assoc]
  rfl

/-! ## Where the accepted transfers are -/

/-- Every accepted transfer has both entries in the journal, or the first, or neither:
because its handler is at work, because an entry is adrift, or for good. -/
structure Torn (interruptions : Nat) (state : State) (settled torn lost : Multiset Transfer)
    (astray : Multiset Sending) : Prop where
  adrift : state.adrift = astray.bind fun sending => Multiset.ofList sending.entries
  accepted : state.accepted = settled +
    (torn + astray.bind Sending.half + state.calls.bind Call.half) +
    (lost + astray.bind Sending.absent + state.calls.bind Call.absent)
  entries : moved state.journal = settled.bind pair +
    (torn + astray.bind Sending.half + state.calls.bind Call.half).map lone
  few : torn.card + lost.card + (astray.countP fun sending => sending.handled) ≤ interruptions

private theorem Torn.initial : Torn 0 State.initial 0 0 0 0 := ⟨rfl, rfl, rfl, le_rfl⟩

private theorem accepted_genuine {Allowed : State → Action → Prop} {state : State}
    (reached : system.Reached Allowed state) :
    ∀ transfer ∈ state.accepted, transfer.Genuine := by
  apply reached.invariant_using Contained
    (fun state => ∀ transfer ∈ state.accepted, transfer.Genuine)
    (fun state => Contained.of_reached)
  · intro state first transfer member
    cases first
    exact absurd member (Multiset.notMem_zero transfer)
  · intro state action contained genuine _ enabled
    cases action with
    | deliver command entryId =>
        rcases Option.isSome_iff_exists.mp enabled.2 with ⟨ledger, running⟩
        intro transfer member
        simp only [system, State.perform, running, State.accepted, ← Multiset.coe_add,
          Multiset.add_bind] at member
        rcases Multiset.mem_add.mp member with old | new
        · exact genuine transfer old
        · rcases ledger.apply_cases command entryId with ⟨-, reason, ran⟩ | ⟨positive, -, ran⟩
          · simp [ran, LedgerModule.reject, Call.accepts] at new
          · rw [ran] at new
            have same : transfer = command := by simpa [Call.accepts] using new
            rw [same]
            exact ⟨positive, contained.commands command enabled.1⟩
    | confirm call entryId =>
        cases running : state.writer <;>
          simpa [system, State.perform, running, State.accepted] using genuine
    | fail call =>
        cases stored : call.stored <;>
          simpa [system, State.perform, State.stray, stored, State.accepted] using genuine
    | _ => exact genuine

/-- Stored, an entry completes its transfer or begins it. -/
theorem moved_entries {sending : Sending}
    (genuine : ∀ transfer ∈ sending.half + sending.absent, transfer.Genuine) :
    moved sending.entries + sending.half.map lone =
      sending.half.bind pair + sending.absent.map lone := by
  cases sending with
  | opening account amountMinor entryId =>
      simp [Sending.entries, Sending.half, Sending.absent, moved_fund]
  | debit transfer entryId =>
      have mine : transfer.Genuine := genuine transfer (by simp [Sending.half, Sending.absent])
      simp [Sending.entries, Sending.half, Sending.absent, mine.moved_debit]
  | credit transfer entryId =>
      have mine : transfer.Genuine := genuine transfer (by simp [Sending.half, Sending.absent])
      simp only [Sending.entries, Sending.half, Sending.absent, mine.moved_credit,
        Multiset.map_singleton, Multiset.singleton_bind, Multiset.map_zero, add_zero]
      rw [add_comm]
      rfl
  | rejection rejected => simp [Sending.entries, Sending.half, Sending.absent]

private theorem Sending.one_transfer (sending : Sending) :
    sending.half.card + sending.absent.card ≤ if sending.handled then 1 else 0 := by
  cases sending <;> simp [half, absent, handled]

private theorem cut_short_le_handled (sendings : Multiset Sending) :
    (sendings.bind Sending.half).card + (sendings.bind Sending.absent).card ≤
      sendings.countP fun sending => sending.handled := by
  induction sendings using Multiset.induction_on with
  | empty => rfl
  | cons sending sendings induction =>
      have one := sending.one_transfer
      rw [Multiset.cons_bind, Multiset.cons_bind, Multiset.card_add, Multiset.card_add,
        Multiset.countP_cons]
      omega

namespace Torn

variable {interruptions : Nat} {state later : State} {settled torn lost : Multiset Transfer}
variable {astray : Multiset Sending}

private theorem of_same (held : Torn interruptions state settled torn lost astray)
    (adrift : later.adrift = state.adrift) (accepted : later.accepted = state.accepted)
    (journal : later.journal = state.journal)
    (half : later.calls.bind Call.half = state.calls.bind Call.half)
    (absent : later.calls.bind Call.absent = state.calls.bind Call.absent) :
    Torn interruptions later settled torn lost astray where
  adrift := by rw [adrift, held.adrift]
  accepted := by rw [accepted, half, absent, held.accepted]
  entries := by rw [journal, half, held.entries]
  few := held.few

private theorem sending_adrift (held : Torn interruptions state settled torn lost astray)
    {entry : EntryPosted} (member : entry ∈ state.adrift) :
    ∃ sending ∈ astray, sending.entries = [entry] ∧
      state.adrift.erase entry =
        (astray.erase sending).bind fun sending => Multiset.ofList sending.entries := by
  rw [held.adrift] at member
  rcases Multiset.mem_bind.mp member with ⟨sending, present, sent⟩
  have single : sending.entries = [entry] := by
    cases sending <;> simp [Sending.entries] at sent ⊢ <;> exact sent.symm
  refine ⟨sending, present, single, ?_⟩
  rw [held.adrift, bind_erase (fun sending => Multiset.ofList sending.entries) present, single]
  simp

private theorem astray_genuine (held : Torn interruptions state settled torn lost astray)
    (genuine : ∀ transfer ∈ state.accepted, transfer.Genuine) {sending : Sending}
    (present : sending ∈ astray) :
    ∀ transfer ∈ sending.half + sending.absent, transfer.Genuine := by
  intro transfer member
  apply genuine
  rw [held.accepted, bind_erase Sending.half present, bind_erase Sending.absent present]
  simp only [Multiset.mem_add] at member ⊢
  tauto

private theorem call_genuine (held : Torn interruptions state settled torn lost astray)
    (genuine : ∀ transfer ∈ state.accepted, transfer.Genuine) {call : Call}
    (present : call ∈ state.calls) (notStored : call.stored = false) :
    ∀ transfer ∈ call.sending.half + call.sending.absent, transfer.Genuine := by
  intro transfer member
  apply genuine
  rw [held.accepted, bind_erase Call.half present, bind_erase Call.absent present]
  simp only [Multiset.mem_add, Call.half, Call.absent, Call.left, notStored, Bool.false_eq_true,
    if_false, Multiset.singleton_bind] at member ⊢
  tauto

private theorem store (held : Torn interruptions state settled torn lost astray)
    (genuine : ∀ transfer ∈ state.accepted, transfer.Genuine) {call : Call}
    (present : call ∈ state.calls) (notStored : call.stored = false) :
    Torn interruptions (state.perform (.store call)) (settled + call.sending.half) torn lost
      astray := by
  have whole := moved_entries (held.call_genuine genuine present notStored)
  have half : call.half = call.sending.half := by
    simp [Call.half, Call.left, Call.severed, notStored]
  have absent : call.absent = call.sending.absent := by simp [Call.absent, Call.left, notStored]
  have later : (⟨call.sending, true⟩ : Call).half = call.sending.absent := by
    simp [Call.half, Call.left, Call.severed]
  have none : (⟨call.sending, true⟩ : Call).absent = 0 := by simp [Call.absent, Call.left]
  have accepted := held.accepted
  have entries := held.entries
  rw [bind_erase Call.half present, half] at accepted entries
  rw [bind_erase Call.absent present, absent] at accepted
  refine ⟨held.adrift, ?_, ?_, held.few⟩
  · change state.accepted = _
    rw [accepted]
    simp only [State.perform, State.take, Multiset.cons_bind, later, none]
    abel
  · simp only [State.perform, State.take, Multiset.cons_bind, later, moved_append, entries,
      Multiset.add_bind, Multiset.map_add] at whole ⊢
    calc settled.bind pair + (torn.map lone + (astray.bind Sending.half).map lone +
            (call.sending.half.map lone + ((state.calls.erase call).bind Call.half).map lone)) +
          moved call.sending.entries
        = settled.bind pair + (torn.map lone + (astray.bind Sending.half).map lone +
            ((state.calls.erase call).bind Call.half).map lone) +
          (moved call.sending.entries + call.sending.half.map lone) := by abel
      _ = _ := by
        rw [whole]
        abel

private theorem storeLate (held : Torn interruptions state settled torn lost astray)
    (genuine : ∀ transfer ∈ state.accepted, transfer.Genuine) {entry : EntryPosted}
    {sending : Sending} (present : sending ∈ astray) (sent : sending.entries = [entry])
    (rest : state.adrift.erase entry =
      (astray.erase sending).bind fun sending => Multiset.ofList sending.entries) :
    Torn interruptions (state.perform (.storeLate entry)) (settled + sending.half)
      (torn + sending.absent) lost (astray.erase sending) := by
  have whole := moved_entries (held.astray_genuine genuine present)
  have one := sending.one_transfer
  have few := held.few
  have accepted := held.accepted
  have entries := held.entries
  rw [bind_erase Sending.half present] at accepted entries
  rw [bind_erase Sending.absent present] at accepted
  rw [← Multiset.cons_erase present, Multiset.countP_cons] at few
  refine ⟨rest, ?_, ?_, ?_⟩
  · change state.accepted = _
    rw [accepted]
    simp only [State.perform, State.stray]
    abel
  · simp only [State.perform, State.stray, moved_append, entries, Multiset.add_bind,
      Multiset.map_add, ← sent] at whole ⊢
    calc settled.bind pair + (torn.map lone + (sending.half.map lone +
            ((astray.erase sending).bind Sending.half).map lone) +
            (state.calls.bind Call.half).map lone) + moved sending.entries
        = settled.bind pair + (torn.map lone +
            ((astray.erase sending).bind Sending.half).map lone +
            (state.calls.bind Call.half).map lone) +
          (moved sending.entries + sending.half.map lone) := by abel
      _ = _ := by
        rw [whole]
        abel
  · rw [Multiset.card_add]
    omega

private theorem lose (held : Torn interruptions state settled torn lost astray)
    {entry : EntryPosted}
    {sending : Sending} (present : sending ∈ astray)
    (rest : state.adrift.erase entry =
      (astray.erase sending).bind fun sending => Multiset.ofList sending.entries) :
    Torn interruptions (state.perform (.lose entry)) settled (torn + sending.half)
      (lost + sending.absent) (astray.erase sending) := by
  have one := sending.one_transfer
  have few := held.few
  have accepted := held.accepted
  have entries := held.entries
  rw [bind_erase Sending.half present] at accepted entries
  rw [bind_erase Sending.absent present] at accepted
  rw [← Multiset.cons_erase present, Multiset.countP_cons] at few
  refine ⟨rest, ?_, ?_, ?_⟩
  · change state.accepted = _
    rw [accepted]
    simp only [State.perform]
    abel
  · change moved state.journal = _
    rw [entries]
    congr 2
    simp only [State.perform]
    abel
  · rw [Multiset.card_add, Multiset.card_add]
    omega

private theorem ended (held : Torn interruptions state settled torn lost astray)
    {ending rest : Multiset Call} (calls : state.calls = ending + rest) (going : later.calls = rest)
    (adrift : later.adrift = unstored ending + state.adrift)
    (accepted : later.accepted = state.accepted) (journal : later.journal = state.journal) :
    Torn (interruptions + handlers ending) later settled (torn + ending.bind Call.severed) lost
      (ending.bind Call.left + astray) := by
  have left := left_handlers ending
  have few := held.few
  refine ⟨?_, ?_, ?_, ?_⟩
  · rw [adrift, Call.left_entries, held.adrift, Multiset.add_bind]
  · rw [accepted, held.accepted, calls, going, Multiset.add_bind, Multiset.add_bind,
      bind_half ending, bind_absent ending, Multiset.add_bind, Multiset.add_bind]
    abel
  · rw [journal, held.entries, calls, going, Multiset.add_bind, bind_half ending,
      Multiset.add_bind]
    congr 2
    abel
  · rw [Multiset.card_add, Multiset.countP_add]
    omega

private theorem deliver (held : Torn interruptions state settled torn lost astray)
    {transfer : Transfer} (entryId : String) (running : state.writer.isSome) :
    Torn interruptions (state.perform (.deliver transfer entryId)) settled torn lost astray := by
  rcases Option.isSome_iff_exists.mp running with ⟨ledger, running⟩
  have accepted := held.accepted
  have entries := held.entries
  rcases ledger.apply_cases transfer entryId with ⟨-, reason, ran⟩ | ⟨-, -, ran⟩
  · refine held.of_same ?_ ?_ ?_ ?_ ?_ <;>
      simp [State.perform, running, ran, LedgerModule.reject, State.accepted, Call.accepts,
        Call.half, Call.absent, Call.left, Call.severed, Sending.half, Sending.absent,
        ← Multiset.coe_add]
  · have begun : (state.perform (.deliver transfer entryId)).accepted =
        state.accepted + {transfer} := by
      simp [State.perform, running, ran, State.accepted, Call.accepts, ← Multiset.coe_add]
    have half : (⟨.debit transfer entryId, false⟩ : Call).half = 0 := by
      simp [Call.half, Call.left, Call.severed, Sending.half]
    have absent : (⟨.debit transfer entryId, false⟩ : Call).absent = {transfer} := by
      simp [Call.absent, Call.left, Sending.absent]
    have calls : (state.perform (.deliver transfer entryId)).calls =
        ⟨.debit transfer entryId, false⟩ ::ₘ state.calls := by
      simp [State.perform, running, ran]
    refine ⟨?_, ?_, ?_, held.few⟩
    · simpa [State.perform, running] using held.adrift
    · rw [begun, accepted, calls, Multiset.cons_bind, Multiset.cons_bind, half, absent]
      abel
    · rw [calls, Multiset.cons_bind, half, zero_add, ← entries]
      simp [State.perform, running]

private theorem confirm (held : Torn interruptions state settled torn lost astray) {call : Call}
    (entryId : String) (present : call ∈ state.calls) (stored : call.stored = true) :
    Torn interruptions (state.perform (.confirm call entryId)) settled torn lost astray := by
  cases running : state.writer with
  | none =>
      have idle : state.perform (.confirm call entryId) = state := by
        simp [State.perform, running]
      rw [idle]
      exact held
  | some ledger =>
      have mine : (⟨call.sending, true⟩ : Call) = call := by rw [← stored]
      have none : call.absent = 0 := by simp [Call.absent, Call.left, stored]
      refine held.of_same ?_ ?_ ?_ ?_ ?_
      · simp [State.perform, running]
      · simp [State.perform, running, State.accepted]
      · simp [State.perform, running]
      · simp only [State.perform, running, Multiset.add_bind, Call.resume_half, mine]
        exact (bind_erase Call.half present).symm
      · simp only [State.perform, running, Multiset.add_bind, Call.resume_absent]
        rw [bind_erase Call.absent present, none]

/-- Whatever happens, each accepted transfer is still whole, torn or lost. -/
theorem step (held : Torn interruptions state settled torn lost astray)
    (genuine : ∀ transfer ∈ state.accepted, transfer.Genuine) (action : Action)
    (enabled : state.Enabled action) :
    ∃ settled torn lost astray,
      Torn (interruptions + state.interrupted action) (state.perform action) settled torn lost
        astray := by
  cases action with
  | deliver transfer entryId => exact ⟨_, _, _, _, held.deliver entryId enabled.2⟩
  | fund account amountMinor entryId =>
      refine ⟨_, _, _, _, held.of_same rfl rfl rfl ?_ ?_⟩ <;>
        simp [State.perform, LedgerModule.fund, Call.half, Call.absent, Call.left, Call.severed,
          Sending.half, Sending.absent]
  | store call => exact ⟨_, _, _, _, held.store genuine enabled.1 enabled.2⟩
  | confirm call entryId => exact ⟨_, _, _, _, held.confirm entryId enabled.1 enabled.2⟩
  | fail call =>
      have split : state.calls = {call} + state.calls.erase call := by
        rw [Multiset.singleton_add, Multiset.cons_erase enabled]
      have sent : unstored {call} =
          if call.stored then 0 else Multiset.ofList call.sending.entries := by
        rw [← Multiset.cons_zero, unstored_cons]
        exact add_zero _
      refine ⟨_, _, _, _, held.ended split ?_ ?_ ?_ ?_⟩ <;>
        cases stored : call.stored <;>
        simp [State.perform, State.stray, State.accepted, stored, sent]
  | storeLate entry =>
      rcases held.sending_adrift enabled with ⟨sending, present, sent, rest⟩
      exact ⟨_, _, _, _, held.storeLate genuine present sent rest⟩
  | lose entry =>
      rcases held.sending_adrift enabled with ⟨sending, present, -, rest⟩
      exact ⟨_, _, _, _, held.lose present rest⟩
  | crash => exact ⟨_, _, _, _, held.ended (add_zero _).symm rfl rfl rfl rfl⟩
  | _ => exact ⟨_, _, _, _, held.of_same rfl rfl rfl rfl rfl⟩

private theorem of_ran {Allowed : State → Action → Prop} {actions : List Action}
    (ran : system.Ran Allowed actions state) :
    ∃ settled torn lost astray,
      Torn (State.initial.interruptions actions) state settled torn lost astray := by
  have final : state = actions.foldl State.perform State.initial ∧
      ∃ settled torn lost astray,
        Torn (State.initial.interruptions actions) state settled torn lost astray := by
    apply ran.invariant fun actions state =>
      state = actions.foldl State.perform State.initial ∧
        ∃ settled torn lost astray,
          Torn (State.initial.interruptions actions) state settled torn lost astray
    · intro state first
      cases first
      exact ⟨rfl, 0, 0, 0, 0, .initial⟩
    · intro actions state action reached earlier _ enabled
      rcases earlier with ⟨same, settled, torn, lost, astray, held⟩
      constructor
      · rw [List.foldl_concat, ← same]
        rfl
      · rw [State.interruptions_concat, ← same]
        exact held.step (accepted_genuine reached) action enabled
  exact final.2

end Torn

private theorem transferred_eq_moved (journal : List EntryPosted) :
    transferred journal = ((moved journal).map EntryPosted.amountMinor).sum := by
  rw [moved, unnamed, transferred, Multiset.map_coe, Multiset.sum_coe, List.map_map]
  induction journal with
  | nil => rfl
  | cons entry journal induction =>
      by_cases opening : entry.IsOpening <;>
        simp [EntryPosted.transferred, EntryPosted.unnamed, opening, induction]

private theorem sum_pairs (settled : Multiset Transfer) :
    ((settled.bind pair).map EntryPosted.amountMinor).sum = 0 := by
  induction settled using Multiset.induction_on with
  | empty => rfl
  | cons transfer settled induction =>
      rw [Multiset.cons_bind, Multiset.map_add, Multiset.sum_add, induction]
      simp [pair, debitEntry, creditEntry]

private theorem transferred_of_moved {journal : List EntryPosted} {settled torn : Multiset Transfer}
    (entries : moved journal = settled.bind pair + torn.map lone) :
    transferred journal = -(torn.map Transfer.amountMinor).sum := by
  rw [transferred_eq_moved, entries, Multiset.map_add, Multiset.sum_add, sum_pairs, zero_add,
    Multiset.map_map, ← Multiset.sum_map_neg', Multiset.map_map]
  rfl

/-- A failed send or a dead writer costs one transfer for each handler that it ends. In every
run, whatever fails in it, the journal is made up of openings, of whole transfers and of
first halves: each transfer that was accepted is there as a whole, with its debit only, or not
at all, and those that are not whole are no more than the handlers that were cut short or are
at work. What the journal lacks is what was taken by the first halves. -/
theorem interruption_costs_one_transfer {Allowed : State → Action → Prop}
    {actions : List Action} {state : State} (ran : system.Ran Allowed actions state) :
    ∃ whole torn absent : Multiset Transfer,
      state.accepted = whole + torn + absent ∧
      moved state.journal = whole.bind pair + torn.map lone ∧
      torn.card + absent.card ≤
        State.initial.interruptions actions + handlers state.calls ∧
      amounts (Multiset.ofList state.journal) + (torn.map Transfer.amountMinor).sum =
        amounts (Multiset.ofList (state.journal.filter EntryPosted.IsOpening)) := by
  rcases Torn.of_ran ran with ⟨settled, torn, lost, astray, held⟩
  refine ⟨settled, _, _, held.accepted, held.entries, ?_, ?_⟩
  · have few := held.few
    have atWork := left_handlers state.calls
    have inCalls := cut_short_le_handled (state.calls.bind Call.left)
    have left := cut_short_le_handled astray
    rw [bind_half, bind_absent]
    simp only [Multiset.card_add]
    omega
  · rw [amounts_eq, transferred_of_moved held.entries]
    omega

/-- The writer dies between the two entries of a transfer, and again with nothing to do. -/
theorem debit_without_credit : ∃ (state : State) (torn absent : Multiset Transfer),
    torn.card + absent.card ≤ 1 ∧
      amounts (Multiset.ofList state.journal) + (torn.map Transfer.amountMinor).sum = 100 := by
  let fundAlice := Sending.opening "alice" 100 "E-1"
  let rent := requestTransfer "1" "alice" "bob" 60 "rent"
  have ran := TransitionSystem.Ran.of_isSome_run system OneAtATime rfl
    [.start 0, .fund "alice" 100 "E-1", .store ⟨fundAlice, false⟩,
      .confirm ⟨fundAlice, true⟩ "E-2", .request "1" "alice" "bob" 60 "rent",
      .deliver rent "E-3", .store ⟨.debit rent "E-3", false⟩,
      .confirm ⟨.debit rent "E-3", true⟩ "E-4", .crash, .start 2, .crash]
    (by decide +kernel)
  rcases interruption_costs_one_transfer ran with ⟨whole, torn, absent, -, -, few, sums⟩
  exact ⟨_, torn, absent, few, sums.trans (by decide +kernel)⟩

end AmqpApps.Ledger
