import AmqpApps.PolicyAdministration.Application

/-! # What holds of every message

Whatever is said of a message that handlers pass on and duplicates do not
change is said once, of all the places a message can be in: recorded, waiting
for the relay, queued, ever sent, in a handler's hands, or with billing.
-/

namespace AmqpApps.PolicyAdministration

namespace Application

theorem kept (state : Application) (step : Step) :
    state.applications ⊆ (state.perform step).applications ∧
      state.policies ⊆ (state.perform step).policies ∧
      state.outbox ⊆ (state.perform step).outbox := by
  have same : ∀ {Item : Type} (items : List Item), items ⊆ items := List.Subset.refl
  cases step with
  | commit write =>
      cases write with
      | submit row =>
          exact ⟨List.subset_append_left _ _, same _, List.subset_append_left _ _⟩
      | issue event policyId messageId =>
          exact ⟨same _, List.subset_append_left _ _, List.subset_append_left _ _⟩
  | deliver message policyId messageId =>
      cases message <;> exact ⟨same _, same _, same _⟩
  | return_ stage =>
      rw [perform_return]
      exact ⟨same _, same _, same _⟩
  | _ => exact ⟨same _, same _, same _⟩

structure Carries (state : Application) (kind : Message → Prop) (writeKind : Write → Prop) :
    Prop where
  recorded : ∀ message ∈ state.outbox, kind message
  pending : ∀ message ∈ state.pending, kind message
  queued : ∀ message ∈ state.queues, kind message
  sent : ∀ message ∈ state.sent, kind message
  staged : ∀ stage ∈ state.stages, kind stage.message
  written : ∀ write ∈ state.writes, writeKind write
  billed : state.billing.Sourced fun messageId event => kind (.issued messageId event)

structure Closed (kind : Message → Prop) (writeKind : Write → Prop) : Prop where
  next : ∀ message, kind message → ∀ next ∈ message.next, kind next
  issue : ∀ event, kind (.accepted event) → ∀ policyId messageId,
    writeKind (.issue event policyId messageId)
  submit : ∀ row, writeKind (.submit row)

namespace Carries

variable {state : Application} {kind : Message → Prop} {writeKind : Write → Prop}

theorem initial : Application.initial.Carries kind writeKind where
  recorded _ member := nomatch member
  pending _ member := absurd member (Multiset.notMem_zero _)
  queued _ member := absurd member (Multiset.notMem_zero _)
  sent _ member := nomatch member
  staged _ member := absurd member (Multiset.notMem_zero _)
  written _ member := absurd member (Multiset.notMem_zero _)
  billed := ⟨fun _ member => absurd member (Multiset.notMem_zero _), fun _ member => nomatch member⟩

theorem mono {wider : Message → Prop} {writeWider : Write → Prop}
    (carries : state.Carries kind writeKind) (widen : ∀ message, kind message → wider message)
    (widenWrite : ∀ write, writeKind write → writeWider write) :
    state.Carries wider writeWider where
  recorded message member := widen message (carries.recorded message member)
  pending message member := widen message (carries.pending message member)
  queued message member := widen message (carries.queued message member)
  sent message member := widen message (carries.sent message member)
  staged stage member := widen stage.message (carries.staged stage member)
  written write member := widenWrite write (carries.written write member)
  billed :=
    ⟨fun call member => widen _ (carries.billed.1 call member),
      fun taken member => widen _ (carries.billed.2 taken member)⟩

private theorem enqueue (carries : state.Carries kind writeKind) {messages : List Message}
    (ofKind : ∀ message ∈ messages, kind message) :
    (state.enqueue messages).Carries kind writeKind :=
  { carries with
    queued := by
      intro message member
      rcases Multiset.mem_add.mp member with new | old
      · exact ofKind message (Multiset.mem_coe.mp new)
      · exact carries.queued message old
    sent := by
      intro message member
      rcases List.mem_append.mp member with old | new
      · exact carries.sent message old
      · exact ofKind message new }

private theorem enqueue_one (carries : state.Carries kind writeKind) {message : Message}
    (ofKind : kind message) : (state.enqueue [message]).Carries kind writeKind := by
  apply carries.enqueue
  intro other member
  rw [List.mem_singleton.mp member]
  exact ofKind

private theorem commit (carries : state.Carries kind writeKind) {write : Write}
    (record : kind write.record) : (state.perform (.commit write)).Carries kind writeKind where
  recorded message member := by
    rcases List.mem_append.mp member with old | new
    · exact carries.recorded message old
    · rw [List.mem_singleton.mp new]
      exact record
  pending := Multiset.forall_mem_cons.mpr ⟨record, carries.pending⟩
  queued := by cases write <;> exact carries.queued
  sent := by cases write <;> exact carries.sent
  staged := by cases write <;> exact carries.staged
  written other member := carries.written other (Multiset.mem_of_mem_erase member)
  billed := by cases write <;> exact carries.billed

private theorem handle (carries : state.Carries kind writeKind) (closed : Closed kind writeKind)
    {message : Message} (ofKind : kind message) (policyId messageId : String) :
    (state.handle policyId messageId message).Carries kind writeKind := by
  have staged : ∀ stage ∈ (⟨message, false⟩ : Stage) ::ₘ state.stages, kind stage.message :=
    Multiset.forall_mem_cons.mpr ⟨ofKind, carries.staged⟩
  cases message with
  | accepted event =>
      have issued := closed.issue event ofKind policyId messageId
      exact { carries with written := Multiset.forall_mem_cons.mpr ⟨issued, carries.written⟩ }
  | issued envelopeId event =>
      refine { carries with billed := ?_ }
      apply carries.billed.step (.deliver envelopeId event) trivial
      intro delivered policy same
      cases same
      exact ofKind
  | _ => exact { carries with staged := staged }

/-- A step keeps to a closed kind when the record of a commit is of it. -/
theorem step (carries : state.Carries kind writeKind) (closed : Closed kind writeKind)
    (step : Step) (enabled : state.Enabled step)
    (record : ∀ write ∈ state.writes, step = .commit write → kind write.record) :
    (state.perform step).Carries kind writeKind := by
  cases step with
  | submit row =>
      have submitted := closed.submit row
      exact { carries with written := Multiset.forall_mem_cons.mpr ⟨submitted, carries.written⟩ }
  | commit write => exact carries.commit (record write enabled.1 rfl)
  | rollback write =>
      exact { carries with
        written := fun other member => carries.written other (Multiset.mem_of_mem_erase member) }
  | relay message =>
      exact { carries.enqueue_one (carries.pending message enabled) with
        pending := fun other member =>
          carries.pending other (Multiset.mem_of_mem_erase member) }
  | relayAgain message => exact carries.enqueue_one (carries.recorded message enabled)
  | deliver message policyId messageId =>
      have taken : Carries { state with queues := state.queues.erase message } kind writeKind :=
        { carries with
          queued := fun other member =>
            carries.queued other (Multiset.mem_of_mem_erase member) }
      exact taken.handle closed (carries.queued message enabled) policyId messageId
  | duplicate message => exact carries.enqueue_one (carries.sent message enabled)
  | publish stage =>
      have ofKind := carries.staged stage enabled.1
      have published : (state.enqueue stage.message.next).Carries kind writeKind :=
        carries.enqueue (closed.next stage.message ofKind)
      refine { published with staged := ?_ }
      intro other member
      rcases Multiset.mem_cons.mp member with new | old
      · rw [new]
        exact ofKind
      · exact carries.staged other (Multiset.mem_of_mem_erase old)
  | return_ stage =>
      rw [perform_return]
      exact { carries with
        staged := fun other member =>
          carries.staged other (Multiset.mem_of_mem_erase member) }
  | fail stage =>
      exact { carries with
        staged := fun other member =>
          carries.staged other (Multiset.mem_of_mem_erase member) }
  | bill action =>
      refine { carries with billed := carries.billed.step action enabled.1 ?_ }
      intro messageId policy same
      rw [same] at enabled
      cases enabled.2

end Carries

end Application

/-- Billing runs as the module does by itself, under what the application's
runs ask of it. -/
theorem billing_reached {Allowed : Application → Step → Prop}
    {Own : Billing → BillingAction → Prop} {state : Application}
    (asked : ∀ state action, Allowed state (.bill action) → Own state.billing action)
    (deliveries : ∀ billing messageId event, Own billing (.deliver messageId event))
    (reached : application.Reached Allowed state) : billing.Reached Own state.billing := by
  apply reached.project Application.billing
  · intro state first
    cases first
    rfl
  · intro state step allowed enabled
    cases step with
    | commit write => exact .inl (by cases write <;> rfl)
    | deliver message policyId messageId =>
        cases message with
        | issued envelopeId event =>
            exact .inr ⟨.deliver envelopeId event, deliveries _ _ _, trivial, rfl⟩
        | _ => exact .inl rfl
    | return_ stage =>
        have same := congrArg Application.billing (state.perform_return stage)
        exact .inl same
    | bill action => exact .inr ⟨action, asked state action allowed, enabled.1, rfl⟩
    | _ => exact .inl rfl

end AmqpApps.PolicyAdministration
