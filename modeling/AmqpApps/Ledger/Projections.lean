import AmqpApps.Foundation.Filing
import AmqpApps.Ledger.Books
import AmqpApps.Ledger.RebuildCompleteness

/-! # The writer, a writer that follows it, and the readers of its journal

Three computations of the same balances: the writer's own, kept as its sends
return; the fold of a rebuild; and the sums of a projection's statements. The
writer applies entries in the order in which its sends return, which need not
be the order in which the broker stored them.
-/

namespace AmqpApps.Ledger

/-! ## `StatementProjection` -/

structure StatementProjection where
  statements : Filing String EntryPosted

namespace StatementProjection

def new : StatementProjection := ⟨∅⟩

def record (projection : StatementProjection) (entry : EntryPosted) : StatementProjection :=
  ⟨projection.statements.file entry.account entry⟩

def statementOf (projection : StatementProjection) (account : String) : List EntryPosted :=
  projection.statements.of account

def balanceOf (projection : StatementProjection) (account : String) : Int :=
  ((projection.statements.of account).map EntryPosted.amountMinor).sum

def entries (projection : StatementProjection) : Nat := projection.statements.size

def readThrough (journal : List EntryPosted) : StatementProjection :=
  journal.foldl record new

private theorem readThrough_concat (journal : List EntryPosted) (entry : EntryPosted) :
    readThrough (journal ++ [entry]) = (readThrough journal).record entry := by
  simp [readThrough]

private theorem statements_readThrough (journal : List EntryPosted) :
    (readThrough journal).statements =
      Filing.fileAll ∅ (journal.map fun entry => (entry.account, entry)) := by
  induction journal using List.reverseRecOn with
  | nil => rfl
  | append_singleton journal entry induction =>
      rw [readThrough_concat, record, induction, List.map_append, List.map_singleton,
        Filing.fileAll_concat]

/-- A statement is the part of the journal that is about its account. -/
theorem statementOf_readThrough (journal : List EntryPosted) (account : String) :
    (readThrough journal).statementOf account =
      journal.filter fun entry => entry.account = account := by
  rw [statementOf, statements_readThrough, Filing.of_fileAll, List.filter_map, List.map_map]
  exact List.map_id _

theorem balanceOf_readThrough (journal : List EntryPosted) (account : String) :
    (readThrough journal).balanceOf account = onAccount account journal := by
  have statement := statementOf_readThrough journal account
  rw [statementOf] at statement
  rw [balanceOf, statement]
  induction journal with
  | nil => rfl
  | cons entry journal induction =>
      have rest := induction (statementOf_readThrough journal account)
      by_cases same : entry.account = account <;>
        simp [same, rest, EntryPosted.line, amountFor]

theorem entries_readThrough (journal : List EntryPosted) :
    (readThrough journal).entries = journal.length := by
  rw [entries, statements_readThrough, Filing.size_fileAll, List.length_map]

end StatementProjection

/-! ## Readers of the journal -/

/-- A projection, and which entries of the journal it has been handed. -/
structure Subscription where
  first : Nat
  next : Nat
  projection : StatementProjection

def Subscription.deliver (journal : List EntryPosted) (subscription : Subscription) :
    Subscription :=
  match journal[subscription.next]? with
  | some entry =>
      { subscription with
        next := subscription.next + 1
        projection := subscription.projection.record entry }
  | none => subscription

/-- `StatementProjection.start`: from the first entry, or from the next one to
be stored. -/
def Subscription.start (journal : List EntryPosted) (fromTheBeginning : Bool) :
    Subscription :=
  let first := if fromTheBeginning then 0 else journal.length
  ⟨first, first, .new⟩

structure Audience where
  ledger : State
  subscriptions : List Subscription

inductive AudienceAction
  | ledger (action : Action)
  | subscribe (fromTheBeginning : Bool)
  | deliver (index : Nat)

namespace Audience

def initial : Audience := ⟨.initial, []⟩

def Enabled (audience : Audience) : AudienceAction → Prop
  | .ledger action => audience.ledger.Enabled action
  | .subscribe _ => True
  | .deliver index => index < audience.subscriptions.length

instance (audience : Audience) (action : AudienceAction) :
    Decidable (audience.Enabled action) := by
  rcases action with ⟨⟩ <;> unfold Enabled <;> infer_instance

def perform (audience : Audience) : AudienceAction → Audience
  | .ledger action => { audience with ledger := audience.ledger.perform action }
  | .subscribe fromTheBeginning =>
      { audience with
        subscriptions := audience.subscriptions ++
          [.start audience.ledger.journal fromTheBeginning] }
  | .deliver index =>
      { audience with
        subscriptions := audience.subscriptions.modify index
          (Subscription.deliver audience.ledger.journal) }

end Audience

def audience : TransitionSystem Audience AudienceAction where
  Initial state := state = Audience.initial
  Enabled := Audience.Enabled
  perform := Audience.perform

instance (state : Audience) (action : AudienceAction) :
    Decidable (audience.Enabled state action) :=
  inferInstanceAs (Decidable (state.Enabled action))

theorem journal_grows (state : State) (action : Action) :
    ∃ more, (state.perform action).journal = state.journal ++ more := by
  cases action with
  | deliver transfer entryId =>
      cases running : state.writer <;> exact ⟨[], by simp [State.perform, running]⟩
  | store call => exact ⟨call.sending.entries, rfl⟩
  | confirm call entryId =>
      cases running : state.writer <;> exact ⟨[], by simp [State.perform, running]⟩
  | fail call =>
      cases stored : call.stored <;>
        exact ⟨[], by simp [State.perform, State.stray, stored]⟩
  | storeLate entry => exact ⟨[entry], rfl⟩
  | _ => exact ⟨[], by simp [State.perform]⟩

/-- A projection has filed the stretch of the journal it was handed. -/
structure Subscription.Faithful (journal : List EntryPosted) (subscription : Subscription) :
    Prop where
  ordered : subscription.first ≤ subscription.next
  within : subscription.next ≤ journal.length
  handed : subscription.projection =
    .readThrough ((journal.take subscription.next).drop subscription.first)

namespace Subscription.Faithful

variable {journal : List EntryPosted} {subscription : Subscription}

private theorem start (journal : List EntryPosted) (fromTheBeginning : Bool) :
    (Subscription.start journal fromTheBeginning).Faithful journal where
  ordered := le_rfl
  within := by cases fromTheBeginning <;> simp [Subscription.start]
  handed := by cases fromTheBeginning <;> simp [Subscription.start, StatementProjection.readThrough]

private theorem grown (faithful : subscription.Faithful journal) (more : List EntryPosted) :
    subscription.Faithful (journal ++ more) where
  ordered := faithful.ordered
  within := by
    have within := faithful.within
    rw [List.length_append]
    omega
  handed := by
    rw [List.take_append_of_le_length faithful.within]
    exact faithful.handed

private theorem deliver (faithful : subscription.Faithful journal) :
    (subscription.deliver journal).Faithful journal := by
  rw [Subscription.deliver]
  split
  · rename_i entry found
    rcases List.getElem?_eq_some_iff.mp found with ⟨within, here⟩
    refine ⟨by have := faithful.ordered; simp; omega, within, ?_⟩
    have ordered : subscription.first ≤ (journal.take subscription.next).length := by
      rw [List.length_take_of_le faithful.within]
      exact faithful.ordered
    simp only
    rw [faithful.handed, ← StatementProjection.readThrough_concat,
      List.take_succ_eq_append_getElem within, here, List.drop_append_of_le_length ordered]
  · exact faithful

theorem whole (faithful : subscription.Faithful journal) (fromTheFirst : subscription.first = 0)
    (toTheLast : subscription.next = journal.length) :
    subscription.projection = .readThrough journal := by
  rw [faithful.handed, fromTheFirst, toTheLast, List.take_length, List.drop_zero]

end Subscription.Faithful

theorem Audience.faithful_kept (state : Audience) (action : AudienceAction)
    (before : ∀ subscription ∈ state.subscriptions, subscription.Faithful state.ledger.journal) :
    ∀ subscription ∈ (state.perform action).subscriptions,
      subscription.Faithful (state.perform action).ledger.journal := by
  cases action with
  | ledger action =>
      intro subscription member
      rcases journal_grows state.ledger action with ⟨more, grown⟩
      simp only [Audience.perform, grown]
      exact (before subscription member).grown more
  | subscribe fromTheBeginning =>
      intro subscription member
      rcases List.mem_append.mp member with old | new
      · exact before subscription old
      · rw [List.mem_singleton.mp new]
        exact .start _ _
  | deliver index =>
      intro subscription member
      simp only [Audience.perform] at member
      rcases List.mem_iff_getElem?.mp member with ⟨place, found⟩
      rw [List.getElem?_modify] at found
      rcases Option.map_eq_some_iff.mp found with ⟨old, there, equal⟩
      have faithful := before old (List.mem_of_getElem? there)
      rw [← equal]
      split
      · exact faithful.deliver
      · exact faithful

end AmqpApps.Ledger
