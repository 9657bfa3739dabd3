import AmqpApps.Foundation.Runs
import AmqpApps.Ledger.ThreeViews

/-! # Readers that do not compete

Reading takes nothing from the journal, and what a projection has shown of an account stays
the beginning of what it will show.
-/

namespace AmqpApps.Ledger

def AudienceAction.hands (index : Nat) : AudienceAction → Bool
  | deliver other => other == index
  | _ => false

namespace Audience

private theorem faithful_of_reached {Allowed : Audience → AudienceAction → Prop} {state : Audience}
    (reached : audience.Reached Allowed state) :
    ∀ reader ∈ state.subscriptions, reader.Faithful state.ledger.journal := by
  apply reached.invariant fun state =>
    ∀ reader ∈ state.subscriptions, reader.Faithful state.ledger.journal
  · rintro _ rfl reader member
    cases member
  · intro state action before _ _
    exact state.faithful_kept action before

/-! ## From one state to a later one -/

structure Onward (journal : List EntryPosted) (handed : Nat) (reader later : Subscription) :
    Prop where
  first : later.first = reader.first
  forward : reader.next ≤ later.next
  caught : reader.next + handed ≤ later.next ∨ journal.length ≤ later.next

/-- The journal has grown, and every reader has read on. -/
structure Follows (state : Audience) (actions : List AudienceAction) (last : Audience) :
    Prop where
  journal : state.ledger.journal <+: last.ledger.journal
  readers : ∀ (index : Nat) (reader : Subscription), state.subscriptions[index]? = some reader →
    ∃ later, last.subscriptions[index]? = some later ∧
      Onward state.ledger.journal (actions.countP (AudienceAction.hands index)) reader later

private theorem Onward.of_same {journal : List EntryPosted} (reader : Subscription) :
    Onward journal 0 reader reader := ⟨rfl, le_rfl, .inl le_rfl⟩

private theorem Follows.stay (state : Audience) : Follows state [] state where
  journal := List.prefix_rfl
  readers _ reader found := ⟨reader, found, .of_same reader⟩

private theorem Follows.step (state : Audience) (action : AudienceAction) :
    Follows state [action] (state.perform action) := by
  cases action with
  | ledger action =>
      rcases journal_grows state.ledger action with ⟨more, grown⟩
      refine ⟨⟨more, grown.symm⟩, ?_⟩
      intro index reader found
      exact ⟨reader, found, .of_same reader⟩
  | subscribe fromTheBeginning =>
      refine ⟨List.prefix_rfl, ?_⟩
      intro index reader found
      refine ⟨reader, ?_, .of_same reader⟩
      have within := (List.getElem?_eq_some_iff.mp found).1
      simp only [perform]
      rw [List.getElem?_append_left within]
      exact found
  | deliver other =>
      refine ⟨List.prefix_rfl, ?_⟩
      intro index reader found
      simp only [perform, List.getElem?_modify, found]
      by_cases mine : other = index
      · subst mine
        refine ⟨reader.deliver state.ledger.journal, by simp, ?_⟩
        have handed : [AudienceAction.deliver other].countP (AudienceAction.hands other) = 1 := by
          simp [AudienceAction.hands]
        rw [handed, Subscription.deliver]
        split
        · exact ⟨rfl, Nat.le_succ _, .inl le_rfl⟩
        · rename_i nothing
          exact ⟨rfl, le_rfl, .inr (List.getElem?_eq_none_iff.mp nothing)⟩
      · refine ⟨reader, by simp [mine], ?_⟩
        have handed : [AudienceAction.deliver other].countP (AudienceAction.hands index) = 0 := by
          simp [AudienceAction.hands, mine]
        rw [handed]
        exact .of_same reader

private theorem Follows.trans {state next last : Audience} {actions more : List AudienceAction}
    (early : Follows state actions next) (late : Follows next more last) :
    Follows state (actions ++ more) last where
  journal := early.journal.trans late.journal
  readers index reader found := by
    rcases early.readers index reader found with ⟨middle, there, before⟩
    rcases late.readers index middle there with ⟨later, here, after⟩
    have longer := early.journal.length_le
    refine ⟨later, here, after.first.trans before.first,
      before.forward.trans after.forward, ?_⟩
    rw [List.countP_append]
    have forward := after.forward
    rcases before.caught with handed | caught
    · rcases after.caught with more | all
      · left
        omega
      · right
        omega
    · right
      omega

private theorem Follows.of_leads {Allowed : Audience → AudienceAction → Prop}
    {state last : Audience}
    {actions : List AudienceAction} (path : audience.Leads Allowed state actions last) :
    Follows state actions last := by
  induction path with
  | stay => exact .stay _
  | @go state last action actions _ _ _ induction =>
      exact (Follows.step state action).trans induction

end Audience

/-! ## Statements -/

private theorem Subscription.Faithful.statementOf {journal : List EntryPosted}
    {reader : Subscription}
    (faithful : reader.Faithful journal) (account : String) :
    reader.projection.statementOf account =
      ((journal.take reader.next).drop reader.first).filter fun entry =>
        entry.account = account := by
  rw [faithful.handed, StatementProjection.statementOf_readThrough]

/-- One who has read further shows all that the other shows, and maybe more. -/
theorem statementOf_mono {journal longer : List EntryPosted} {reader later : Subscription}
    (early : reader.Faithful journal) (late : later.Faithful longer) (grown : journal <+: longer)
    (first : later.first = reader.first) (forward : reader.next ≤ later.next) (account : String) :
    reader.projection.statementOf account <+: later.projection.statementOf account := by
  rw [early.statementOf, late.statementOf, first]
  apply List.IsPrefix.filter
  apply List.IsPrefix.drop
  rcases grown with ⟨more, rfl⟩
  rw [← List.take_append_of_le_length early.within]
  exact List.take_prefix_take_left forward

end AmqpApps.Ledger
